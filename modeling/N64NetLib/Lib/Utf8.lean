import Mathlib.Data.Char
import Mathlib.Data.List.Basic
import Mathlib.Tactic

/-! # UTF-8

A text as a list of characters, its UTF-8 bytes (`utf8`), and the text of some bytes if they are UTF-8
(`ofUtf8`); the two are inverse to each other. Languages whose strings are made of 16-bit units count
the length of a text in these (`utf16Length`). An ASCII text has as many units as bytes, and no other
text has (`length_utf8_eq_iff`). -/

namespace N64NetLib.Lib.Utf8

/-- The bytes of a text. -/
def utf8 (s : List Char) : List UInt8 := s.flatMap String.utf8EncodeChar

/-- The text of some bytes. -/
def ofUtf8 (b : List UInt8) : Option (List Char) := b.toByteArray.utf8Decode?.map Array.toList

/-- The number of 16-bit units of a character. -/
def utf16Size (c : Char) : ℕ := if c.toNat < 0x10000 then 1 else 2

/-- The number of 16-bit units of a text. -/
def utf16Length (s : List Char) : ℕ := (s.map utf16Size).sum

/-- All characters are ASCII. -/
def IsAscii (s : List Char) : Prop := ∀ c ∈ s, c.toNat < 128

instance decidableIsAscii (s : List Char) : Decidable (IsAscii s) := List.decidableBAll _ s

@[simp] theorem utf8_nil : utf8 [] = [] := rfl

@[simp] theorem utf8_cons (c : Char) (s : List Char) :
    utf8 (c :: s) = String.utf8EncodeChar c ++ utf8 s := rfl

@[simp] theorem ofUtf8_utf8 (s : List Char) : ofUtf8 (utf8 s) = some s := by
  have h : (utf8 s).toByteArray = s.utf8Encode := rfl
  rw [ofUtf8, h, List.utf8Decode?_utf8Encode]
  rfl

theorem utf8_of_ofUtf8 {b : List UInt8} {s : List Char} (h : ofUtf8 b = some s) : utf8 s = b := by
  obtain ⟨a, ha, rfl⟩ := Option.map_eq_some_iff.mp h
  have hsome : b.toByteArray.utf8Decode?.isSome := by simp [ha]
  have henc := ByteArray.utf8Encode_get_utf8Decode? (h := hsome)
  simp only [ha, Option.get_some] at henc
  have hdata := congrArg (fun x : ByteArray => x.data.toList) henc
  simpa [List.utf8Encode, utf8] using hdata

/-! ### Sizes -/

theorem utf8EncodeChar_ascii {c : Char} (h : c.toNat < 128) :
    String.utf8EncodeChar c = [UInt8.ofNat c.toNat] :=
  if_pos (Nat.le_of_lt_succ h)

/-- A character that is not ASCII has more bytes than units. -/
theorem utf16Size_lt_length {c : Char} (h : 128 ≤ c.toNat) :
    utf16Size c < (String.utf8EncodeChar c).length := by
  have hval : c.toNat = c.val.toNat := rfl
  have hno : ¬ c.val.toNat ≤ 0x7f := by omega
  simp only [String.utf8EncodeChar, hno, if_false, utf16Size, hval]
  split_ifs
  all_goals first | omega | simp

theorem length_utf8EncodeChar_le (c : Char) : (String.utf8EncodeChar c).length ≤ 3 * utf16Size c := by
  have hval : c.toNat = c.val.toNat := rfl
  simp only [String.utf8EncodeChar, utf16Size, hval]
  split_ifs
  all_goals first | omega | simp

theorem utf16Size_le_length (c : Char) : utf16Size c ≤ (String.utf8EncodeChar c).length := by
  rcases Nat.lt_or_ge c.toNat 128 with h | h
  · have hsize : utf16Size c = 1 := if_pos (by omega)
    simp [utf8EncodeChar_ascii h, hsize]
  · exact (utf16Size_lt_length h).le

@[simp] theorem utf16Length_nil : utf16Length [] = 0 := rfl

@[simp] theorem utf16Length_cons (c : Char) (s : List Char) :
    utf16Length (c :: s) = utf16Size c + utf16Length s := by simp [utf16Length]

theorem utf16Length_le_length : ∀ s : List Char, utf16Length s ≤ (utf8 s).length
  | [] => Nat.le_refl _
  | c :: s => by
    have hc := utf16Size_le_length c
    have hs := utf16Length_le_length s
    simp only [utf16Length_cons, utf8_cons, List.length_append]
    omega

theorem length_utf8_le : ∀ s : List Char, (utf8 s).length ≤ 3 * utf16Length s
  | [] => Nat.le_refl _
  | c :: s => by
    have hc := length_utf8EncodeChar_le c
    have hs := length_utf8_le s
    simp only [utf16Length_cons, utf8_cons, List.length_append]
    omega

/-! ### ASCII -/

theorem isAscii_cons {c : Char} {s : List Char} : IsAscii (c :: s) ↔ c.toNat < 128 ∧ IsAscii s := by
  simp [IsAscii]

theorem isAscii_append {s t : List Char} : IsAscii (s ++ t) ↔ IsAscii s ∧ IsAscii t := by
  simp [IsAscii, or_imp, forall_and]

/-- **As many units as bytes** are in an ASCII text only. -/
theorem length_utf8_eq_iff : ∀ {s : List Char}, (utf8 s).length = utf16Length s ↔ IsAscii s
  | [] => by simp [IsAscii]
  | c :: s => by
    have hs := utf16Length_le_length s
    rw [isAscii_cons, ← length_utf8_eq_iff, utf8_cons, utf16Length_cons, List.length_append]
    rcases Nat.lt_or_ge c.toNat 128 with h | h
    · have hsize : utf16Size c = 1 := if_pos (by omega)
      simp only [utf8EncodeChar_ascii h, hsize, List.length_singleton, h, true_and]
      omega
    · have hc := utf16Size_lt_length h
      omega

theorem utf16Length_of_isAscii : ∀ {s : List Char}, IsAscii s → utf16Length s = s.length
  | [], _ => rfl
  | c :: s, h => by
    obtain ⟨hc, hs⟩ := isAscii_cons.mp h
    have hsize : utf16Size c = 1 := if_pos (by omega)
    rw [utf16Length_cons, hsize, utf16Length_of_isAscii hs, List.length_cons, Nat.add_comm]

theorem utf8_of_isAscii : ∀ {s : List Char}, IsAscii s → utf8 s = s.map fun c => UInt8.ofNat c.toNat
  | [], _ => rfl
  | c :: s, h => by
    obtain ⟨hc, hs⟩ := isAscii_cons.mp h
    rw [utf8_cons, utf8EncodeChar_ascii hc, utf8_of_isAscii hs, List.map_cons, List.singleton_append]

end N64NetLib.Lib.Utf8
