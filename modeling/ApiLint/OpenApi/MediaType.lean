import ApiLint.Text.CharClass
set_option autoImplicit false

/-!
# JSON media types

A media type is a JSON type when it is `application/json` or a type with the suffix
`+json`.  Case does not matter, blanks may follow, and so may parameters behind a
semicolon.
-/

namespace ApiLint.MediaType

/-- The characters of a type or subtype name. -/
def isTokenChar (c : Char) : Bool := Text.isWordChar c || c = '.' || c = '-'

/-- What may follow a media type: blanks, then nothing or parameters behind a semicolon on the
same line. -/
def isTrailer (text : List Char) : Bool :=
  match text.dropWhile Text.isWhiteSpace with
  | ';' :: parameters => parameters.all (· ≠ '\n')
  | rest => rest.isEmpty

/-- The literal type, followed by a trailer. -/
def isApplicationJson (text : List Char) : Bool :=
  match Text.dropCaseless "application/json".toList text with
  | some rest => isTrailer rest
  | none => false

/-- A type with a JSON suffix, followed by a trailer: both names are not empty. -/
def isSuffixed (text : List Char) : Bool :=
  let mainType := text.takeWhile isTokenChar
  match text.dropWhile isTokenChar with
  | '/' :: rest =>
    let subtype := rest.takeWhile isTokenChar
    match Text.dropCaseless "+json".toList (rest.dropWhile isTokenChar) with
    | some trailer => !mainType.isEmpty && !subtype.isEmpty && isTrailer trailer
    | none => false
  | _ => false

/-- The media type is a JSON type. -/
def isJson (mediaType : String) : Bool :=
  isApplicationJson mediaType.toList || isSuffixed mediaType.toList

end ApiLint.MediaType
