import FlatQuery.Text.Utf8
import Mathlib.Data.List.Lex

/-!
# Encoded texts

What a text is as bytes. A text is cut after the bytes of what it begins with
(`dropBytes?_encode_append`) and not beyond its end (`dropBytes?_eq_none`). Encoding keeps the order
of texts: bytes compare as characters do, whatever comes after them (`encodeChar_append_lt`), so the
order by code points is the order of the encoded bytes (`encode_lt_iff`, `bytes_lt_iff`).
-/

namespace FlatQuery.Text.Utf8

theorem encode_cons (c : Char) (cs : List Char) : encode (c :: cs) = encodeChar c ++ encode cs :=
  List.flatMap_cons

theorem encode_append (cs ds : List Char) : encode (cs ++ ds) = encode cs ++ encode ds :=
  List.flatMap_append

theorem encodeChar_ne_nil (c : Char) : encodeChar c ≠ [] := by
  unfold encodeChar
  dsimp only
  split
  · simp
  · split
    · simp
    · split <;> simp

theorem length_encodeChar_pos (c : Char) : 0 < (encodeChar c).length :=
  List.length_pos_iff.2 (encodeChar_ne_nil c)

/-! ## Counting in bytes -/

theorem dropBytes?_zero (cs : List Char) : dropBytes? 0 cs = some cs := by
  cases cs <;> rfl

/-- Characters are taken off whole. -/
theorem dropBytes?_length_add (n : Nat) (c : Char) (cs : List Char) :
    dropBytes? ((encodeChar c).length + n) (c :: cs) = dropBytes? n cs := by
  obtain ⟨size, hsize⟩ := Nat.exists_eq_add_one.2 (length_encodeChar_pos c)
  have hsum : (encodeChar c).length + n = size + n + 1 := by omega
  rw [hsum, dropBytes?, if_pos (by omega)]
  congr 1
  omega

theorem dropBytes?_encode_append (cs rest : List Char) :
    dropBytes? (encode cs).length (cs ++ rest) = some rest := by
  induction cs with
  | nil => exact dropBytes?_zero rest
  | cons c cs ih =>
    rw [encode_cons, List.length_append, List.cons_append, dropBytes?_length_add, ih]

theorem dropBytes?_eq_none {n : Nat} {cs : List Char} (h : (encode cs).length < n) :
    dropBytes? n cs = none := by
  induction cs generalizing n with
  | nil =>
    obtain ⟨n, rfl⟩ : ∃ m, n = m + 1 := ⟨n - 1, by omega⟩
    rfl
  | cons c cs ih =>
    rw [encode_cons, List.length_append] at h
    obtain ⟨m, rfl⟩ : ∃ m, n = (encodeChar c).length + m := ⟨n - (encodeChar c).length, by omega⟩
    rw [dropBytes?_length_add]
    exact ih (by omega)

/-! ## Order -/

/-- Of two numbers in base 64 the greater is so in the digits before the last, or in the last. -/
theorem div_lt_or_mod_lt {m n : Nat} (h : m < n) :
    m / 64 < n / 64 ∨ m / 64 = n / 64 ∧ m % 64 < n % 64 := by
  omega

/-- The first byte that differs decides, and it does not lie beyond the lesser of the characters. -/
theorem encodeChar_append_lt {c d : Char} (h : c < d) (xs ys : List UInt8) :
    encodeChar c ++ xs < encodeChar d ++ ys := by
  have hlt : c.toNat < d.toNat := h
  have hbound : d.toNat < 0x110000 := by
    rcases d.valid with hd | ⟨-, hd⟩
    · exact Nat.lt_trans hd (by decide)
    · exact hd
  have hpow : Nat.pow 64 0 = 1 ∧ Nat.pow 64 1 = 64 ∧ Nat.pow 64 2 = 4096 := by decide
  unfold encodeChar
  dsimp only
  generalize c.toNat = m at hlt ⊢
  generalize d.toNat = n at hlt hbound ⊢
  -- one case for each pair of lengths; within a length the bytes are the digits in base 64
  split_ifs <;> simp only [hpow, Nat.div_one, List.cons_append, List.nil_append,
    List.cons_lt_cons_iff, UInt8.lt_iff_toNat_lt, ← UInt8.toNat_inj, UInt8.toNat_ofNat'] <;>
      rcases div_lt_or_mod_lt hlt with hfirst | ⟨hfirst, hlast⟩ <;> omega

theorem encode_lt_encode {cs ds : List Char} (h : cs < ds) : encode cs < encode ds := by
  induction h with
  | nil =>
    rename_i d ds
    obtain ⟨byte, bytes, hbytes⟩ := List.exists_cons_of_ne_nil (encodeChar_ne_nil d)
    rw [encode_cons, hbytes]
    exact List.Lex.nil
  | rel h =>
    rw [encode_cons, encode_cons]
    exact encodeChar_append_lt h _ _
  | cons h ih =>
    rw [encode_cons, encode_cons]
    exact List.append_left_lt ih

theorem encode_lt_iff {cs ds : List Char} : encode cs < encode ds ↔ cs < ds := by
  refine ⟨fun h => ?_, encode_lt_encode⟩
  rcases Std.lt_trichotomy cs ds with hlt | rfl | hgt
  · exact hlt
  · exact absurd h (List.lt_irrefl _)
  · exact absurd h (List.lt_asymm (encode_lt_encode hgt))

end FlatQuery.Text.Utf8

namespace FlatQuery.Text

/-- A text as it is encoded. -/
def bytes (s : String) : List UInt8 :=
  Utf8.encode s.toList

theorem bytes_lt_iff {s t : String} : bytes s < bytes t ↔ s < t :=
  Utf8.encode_lt_iff

end FlatQuery.Text
