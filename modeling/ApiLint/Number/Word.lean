set_option autoImplicit false

/-!
# Bounds of machine words

Integers of documents and configuration files are limited to words of 64 bits, with or
without a sign; what is larger is read otherwise, or refused.
-/

namespace ApiLint.Word

/-- Two to the power 64: the naturals below it fit a word. -/
def limit : Nat := 0x10000000000000000

/-- Two to the power 63: what a signed word holds stops short of it, and begins with its
negative. -/
def signedLimit : Nat := 0x8000000000000000

/-- Two to the power 128: the naturals below it fit two words. -/
def doubleLimit : Nat := 0x100000000000000000000000000000000

/-- Two to the power 127: the bound of signed integers in two words. -/
def doubleSignedLimit : Nat := 0x80000000000000000000000000000000

end ApiLint.Word
