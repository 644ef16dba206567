import KeyBroker.KeyMap
import Mathlib.Data.Char

/-!
# Keys as bytes

A key is kept as code points, and a store outside compares its UTF-8 bytes. The two
orders agree, and so do the two ways to begin with a stem: where two characters differ,
the encoding of the lesser one is already the lesser one, whatever follows.
-/

namespace KeyBroker

/-- Bytes compare as the numbers that they hold. -/
theorem cons_byte_lt {m n : Nat} {x y : List UInt8} (hm : m < 256) (hn : n < 256) :
    UInt8.ofNat m :: x < UInt8.ofNat n :: y ↔ m < n ∨ m = n ∧ x < y := by
  rw [List.cons_lt_cons_iff, UInt8.lt_iff_toNat_lt, ← UInt8.toNat_inj, UInt8.toNat_ofNat',
    UInt8.toNat_ofNat', Nat.mod_eq_of_lt hm, Nat.mod_eq_of_lt hn]

/-- The encodings of two characters differ as the characters do, and neither continues the
other. -/
theorem utf8EncodeChar_append_lt {c d : Char} (h : c < d) (x y : List UInt8) :
    String.utf8EncodeChar c ++ x < String.utf8EncodeChar d ++ y := by
  have hcd : c.val.toNat < d.val.toNat := h
  have hd : d.val.toNat < 1114112 := by
    have hvalid := d.valid
    simp only [UInt32.isValidChar, Nat.isValidChar] at hvalid
    omega
  unfold String.utf8EncodeChar
  generalize c.val.toNat = m at hcd ⊢
  generalize d.val.toNat = n at hcd hd ⊢
  -- six bits go into each byte after the first one
  have hdigits (k : Nat) : k / 4096 = k / 64 / 64 ∧ k / 262144 = k / 64 / 64 / 64 := by omega
  simp only
  split_ifs <;>
    simp (disch := omega) only [List.cons_append, List.nil_append, cons_byte_lt, hdigits] <;>
    omega

/-- Every character takes at least one byte. -/
theorem utf8EncodeChar_ne_nil (c : Char) : String.utf8EncodeChar c ≠ [] := by
  unfold String.utf8EncodeChar
  simp only
  split_ifs <;> exact List.cons_ne_nil _ _

/-- Two lists that begin alike compare as what follows the beginning. -/
theorem append_lt_append_iff (x a b : List UInt8) : x ++ a < x ++ b ↔ a < b := by
  induction x with
  | nil => rfl
  | cons byte rest ih => simp [ih]

namespace Key

/-- The UTF-8 bytes of a key. -/
def utf8 (key : Key) : List UInt8 := key.flatMap String.utf8EncodeChar

/-- The bytes of a key are those of its first character, then those of the others. -/
theorem utf8_cons (c : Char) (key : Key) : utf8 (c :: key) = String.utf8EncodeChar c ++ utf8 key :=
  List.flatMap_cons

/-- The empty key comes before any other in the order of the bytes. -/
theorem nil_lt_utf8_cons (c : Char) (key : Key) : [] < utf8 (c :: key) := by
  rw [utf8_cons]
  obtain ⟨first, rest, hbytes⟩ := List.exists_cons_of_ne_nil (utf8EncodeChar_ne_nil c)
  rw [hbytes, List.cons_append]
  exact List.nil_lt_cons _ _

/-- Keys compare as their bytes do. -/
theorem utf8_lt_iff {a b : Key} : utf8 a < utf8 b ↔ a < b := by
  induction a generalizing b with
  | nil =>
    cases b with
    | nil => exact ⟨fun h => absurd h (List.lt_irrefl _), fun h => absurd h (List.lt_irrefl _)⟩
    | cons d b => exact ⟨fun _ => List.nil_lt_cons _ _, fun _ => nil_lt_utf8_cons d b⟩
  | cons c a ih =>
    cases b with
    | nil => exact ⟨fun h => absurd h (List.not_lt_nil _), fun h => absurd h (List.not_lt_nil _)⟩
    | cons d b =>
      rw [List.cons_lt_cons_iff, utf8_cons, utf8_cons]
      rcases lt_trichotomy c d with hlt | rfl | hgt
      · exact ⟨fun _ => .inl hlt, fun _ => utf8EncodeChar_append_lt hlt _ _⟩
      · rw [append_lt_append_iff, ih]
        exact ⟨fun h => .inr ⟨rfl, h⟩, fun h => h.elim (fun h => absurd rfl (ne_of_lt h)) (·.2)⟩
      · have hbytes := utf8EncodeChar_append_lt hgt (utf8 b) (utf8 a)
        constructor
        · intro h
          exact absurd (List.lt_trans h hbytes) (List.lt_irrefl _)
        · rintro (h | ⟨rfl, _⟩)
          · exact absurd h (lt_asymm hgt)
          · exact absurd rfl (ne_of_lt hgt)

/-- A key begins with a stem as its bytes begin with the bytes of the stem. -/
theorem utf8_prefix_iff {stem key : Key} : utf8 stem <+: utf8 key ↔ stem <+: key := by
  induction stem generalizing key with
  | nil => exact ⟨fun _ => List.nil_prefix, fun _ => List.nil_prefix⟩
  | cons c stem ih =>
    cases key with
    | nil =>
      constructor
      · intro h
        have hnil : utf8 (c :: stem) = [] := List.prefix_nil.1 h
        have hlt := nil_lt_utf8_cons c stem
        rw [hnil] at hlt
        exact absurd hlt (List.lt_irrefl _)
      · exact fun h => absurd (List.prefix_nil.1 h) (List.cons_ne_nil _ _)
    | cons d key =>
      rw [List.cons_prefix_cons, utf8_cons, utf8_cons]
      by_cases hcd : c = d
      · subst hcd
        rw [List.prefix_append_right_inj, ih]
        exact ⟨fun h => ⟨rfl, h⟩, (·.2)⟩
      · refine ⟨fun ⟨rest, hrest⟩ => ?_, fun h => absurd h.1 hcd⟩
        rw [List.append_assoc] at hrest
        rcases lt_or_gt_of_ne hcd with hlt | hgt
        · have hbytes := utf8EncodeChar_append_lt hlt (utf8 stem ++ rest) (utf8 key)
          rw [hrest] at hbytes
          exact absurd hbytes (List.lt_irrefl _)
        · have hbytes := utf8EncodeChar_append_lt hgt (utf8 key) (utf8 stem ++ rest)
          rw [hrest] at hbytes
          exact absurd hbytes (List.lt_irrefl _)

end Key

end KeyBroker
