import KeyBroker.Text.Capitals
import KeyBroker.Text.Cased

/-!
# Letter case

Names and words in settings are matched without regard to case: both sides are put
into lower case first. Each character has one lower-case form, except that a
capital sigma at the end of a word has its final form. A text in lower case stays
as it is, `lower_lower`.
-/

namespace KeyBroker.Text

/-- The capital sigma. -/
def capitalSigma : Char := Char.ofNat 0x3A3

/-- The final form of a small sigma. -/
def finalSigma : Char := Char.ofNat 0x3C2

/-- The lower-case form of a character by itself. -/
def lowerChar (c : Char) : List Char :=
  if dottedCapital.covers c.toNat then ['i', Char.ofNat 0x307]
  else
    match smallOf? c.toNat with
    | some n => [Char.ofNat n]
    | none => [c]

/-- Whether the next character that is not looked through is cased. -/
def meetsCased (text : List Char) : Bool :=
  ((text.dropWhile isCaseIgnorable).head?).any isCased

/-- Puts a text into lower case; `before` is what stands before it, backwards. A word
ends at a sigma if it goes on before it and not after it. -/
def lowerAfter (before : List Char) : List Char → List Char
  | [] => []
  | c :: rest =>
    let form :=
      if c = capitalSigma ∧ meetsCased before ∧ !meetsCased rest then [finalSigma]
      else lowerChar c
    form ++ lowerAfter (c :: before) rest

/-- The text in lower case. -/
def lower (text : List Char) : List Char := lowerAfter [] text

/-- Whether a text is a given word, apart from case. -/
def isWord (word : String) (text : List Char) : Bool := lower text == lower word.toList

/-- A valid code point is the code point of its character. -/
theorem toNat_ofNat {n : Nat} (h : n.isValidChar) : (Char.ofNat n).toNat = n := by
  rw [Char.ofNat, dif_pos h]
  rfl

/-- A character that is its own lower-case form. -/
def IsLower (c : Char) : Prop := dottedCapital.covers c.toNat = false ∧ smallOf? c.toNat = none

instance (c : Char) : Decidable (IsLower c) := inferInstanceAs (Decidable (_ ∧ _))

/-- What a character becomes in lower case is in lower case. -/
theorem isLower_of_mem_lowerChar {c d : Char} (h : d ∈ lowerChar c) : IsLower d := by
  unfold lowerChar at h
  split at h
  · have : IsLower 'i' ∧ IsLower (Char.ofNat 0x307) := by decide +kernel
    simp only [List.mem_cons, List.not_mem_nil, or_false] at h
    rcases h with rfl | rfl
    · exact this.1
    · exact this.2
  · rename_i plain
    split at h
    · rename_i small
      rw [List.mem_singleton.1 h, IsLower, toNat_ofNat (isValidChar_small small)]
      exact smallOf?_small small
    · rename_i none
      rw [List.mem_singleton.1 h]
      exact ⟨Bool.eq_false_iff.2 plain, none⟩

/-- What a text becomes in lower case is in lower case, whatever stood before it. -/
theorem isLower_of_mem_lowerAfter {before text : List Char} {d : Char}
    (h : d ∈ lowerAfter before text) : IsLower d := by
  induction text generalizing before with
  | nil => simp [lowerAfter] at h
  | cons c rest ih =>
    rcases List.mem_append.1 h with here | later
    · split at here
      · rw [List.mem_singleton.1 here]
        decide +kernel
      · exact isLower_of_mem_lowerChar here
    · exact ih later

/-- A character in lower case stays as it is. -/
theorem lowerChar_of_isLower {c : Char} (h : IsLower c) : lowerChar c = [c] := by
  simp [lowerChar, h.1, h.2]

/-- A text in lower case stays as it is, whatever stood before it. -/
theorem lowerAfter_of_isLower {before text : List Char} (h : ∀ c ∈ text, IsLower c) :
    lowerAfter before text = text := by
  induction text generalizing before with
  | nil => rfl
  | cons c rest ih =>
    have lower := h c List.mem_cons_self
    have noSigma : c ≠ capitalSigma := by
      rintro rfl
      revert lower
      decide +kernel
    simp [lowerAfter, noSigma, lowerChar_of_isLower lower,
      ih fun d later => h d (List.mem_cons_of_mem _ later)]

/-- Putting a text in lower case twice comes to doing so once. -/
@[simp] theorem lower_lower (text : List Char) : lower (lower text) = lower text :=
  lowerAfter_of_isLower fun _ => isLower_of_mem_lowerAfter

end KeyBroker.Text
