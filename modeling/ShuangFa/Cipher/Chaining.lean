import Mathlib.Data.List.Basic

/-! # Cipher block chaining

Each block is combined with the cipher block in front of it before it is encrypted, the first one
with a start block. Where the block cipher can be inverted and combining can be undone, so can the
whole chain; the two sides share nothing but the start block.
-/

namespace Cipher

variable {β : Type*} (combine : β → β → β)

def chainEncrypt (encrypt : β → β) : β → List β → List β
  | _, [] => []
  | previous, block :: rest =>
    encrypt (combine block previous) ::
      chainEncrypt encrypt (encrypt (combine block previous)) rest

def chainDecrypt (decrypt : β → β) : β → List β → List β
  | _, [] => []
  | previous, cipher :: rest => combine (decrypt cipher) previous :: chainDecrypt decrypt cipher rest

variable {combine} {encrypt decrypt : β → β}

@[simp] theorem chainEncrypt_length (previous : β) (blocks : List β) :
    (chainEncrypt combine encrypt previous blocks).length = blocks.length := by
  induction blocks generalizing previous with
  | nil => rfl
  | cons block rest ih => exact congrArg (· + 1) (ih _)

/-- A chain opens with the start block it was made with. -/
theorem chainDecrypt_chainEncrypt (inverse : ∀ block, decrypt (encrypt block) = block)
    (cancel : ∀ first second, combine (combine first second) second = first) (previous : β)
    (blocks : List β) :
    chainDecrypt combine decrypt previous (chainEncrypt combine encrypt previous blocks) =
      blocks := by
  induction blocks generalizing previous with
  | nil => rfl
  | cons block rest ih =>
    rw [chainEncrypt, chainDecrypt, inverse, cancel, ih]

end Cipher
