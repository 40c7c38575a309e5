/-
Text that a C reader gets without a length: a string ends at its first NUL byte, an array at its
first NULL entry. Text is stored as UTF-8, where only the character NUL has a zero byte, so a reader
gets the text up to its first NUL. A byte below 128 is a character of its own, so bytes split at one are
text on both sides.
-/
import Mathlib.Data.List.Basic
import Mathlib.Data.List.TakeWhile

namespace Lib.CString

/-! ## Up to a terminator -/

section UpTo

variable {α β : Type} [DecidableEq α] [DecidableEq β]

/-- The list up to the first `z`. -/
def upTo (z : α) (l : List α) : List α := l.takeWhile (· ≠ z)

theorem upTo_cons_self (z : α) (l : List α) : upTo z (z :: l) = [] :=
  List.takeWhile_cons_of_neg (by simp)

theorem upTo_cons {z a : α} (h : a ≠ z) (l : List α) : upTo z (a :: l) = a :: upTo z l :=
  List.takeWhile_cons_of_pos (decide_eq_true h)

theorem upTo_append {z : α} {l : List α} (h : z ∉ l) (rest : List α) : upTo z (l ++ rest) = l ++ upTo z rest := by
  unfold upTo
  refine List.takeWhile_append_of_pos fun a ha => ?_
  have hne : a ≠ z := fun hz => h (hz ▸ ha)
  exact decide_eq_true hne

theorem upTo_eq_self {z : α} {l : List α} : upTo z l = l ↔ z ∉ l := by
  induction l with
  | nil => exact ⟨fun _ => List.not_mem_nil, fun _ => rfl⟩
  | cons a l ih =>
    by_cases ha : a = z
    · subst ha
      rw [upTo_cons_self]
      exact ⟨fun h => (by cases h), fun h => absurd List.mem_cons_self h⟩
    · rw [upTo_cons ha, List.cons.injEq, List.mem_cons, not_or, ih]
      exact ⟨fun h => ⟨Ne.symm ha, h.2⟩, fun h => ⟨rfl, h.2⟩⟩

theorem upTo_map {f : α → β} (hf : Function.Injective f) (z : α) (l : List α) :
    upTo (f z) (l.map f) = (upTo z l).map f := by
  induction l with
  | nil => rfl
  | cons a l ih =>
    rw [List.map_cons]
    by_cases ha : a = z
    · subst ha; rw [upTo_cons_self, upTo_cons_self, List.map_nil]
    · rw [upTo_cons ha, upTo_cons fun h => ha (hf h), ih, List.map_cons]

theorem not_mem_upTo (z : α) (l : List α) : z ∉ upTo z l := by
  intro h
  unfold upTo at h
  have hne := List.mem_takeWhile_imp h
  exact of_decide_eq_true hne rfl

theorem upTo_append_self (z : α) (l rest : List α) : upTo z (l ++ z :: rest) = upTo z l := by
  induction l with
  | nil => exact upTo_cons_self z rest
  | cons a l ih =>
    rw [List.cons_append]
    by_cases ha : a = z
    · subst ha; rw [upTo_cons_self, upTo_cons_self]
    · rw [upTo_cons ha, upTo_cons ha, ih]

end UpTo

/-! ## Strings in memory -/

/-- What a reader of the string at the start of `mem` gets. -/
def read (mem : List UInt8) : List UInt8 := upTo 0 mem

/-- The UTF-8 bytes of a text. -/
def encode (text : List Char) : List UInt8 := text.flatMap String.utf8EncodeChar

/-- The text with these UTF-8 bytes. -/
def decode (bytes : List UInt8) : Option (List Char) := bytes.toByteArray.utf8Decode?.map Array.toList

theorem decode_encode (text : List Char) : decode (encode text) = some text := by
  unfold decode encode
  have h := List.utf8Decode?_utf8Encode (l := text)
  unfold List.utf8Encode at h
  rw [h, Option.map_some]

theorem zero_ne_ofNat {n : Nat} (h : n % 256 ≠ 0) : ¬ 0 = UInt8.ofNat n := by
  intro hz
  have hn := congrArg UInt8.toNat hz
  rw [UInt8.toNat_ofNat'] at hn
  exact h hn.symm

/-- Only NUL has a zero byte: the others of a longer sequence have their high bit set. -/
theorem zero_not_mem_utf8EncodeChar {c : Char} (h : c ≠ '\x00') : 0 ∉ String.utf8EncodeChar c := by
  have hpos : c.val.toNat ≠ 0 := fun hz => h (Char.ext (UInt32.toNat_inj.1 hz))
  fun_cases String.utf8EncodeChar c <;> simp only [List.mem_cons, List.not_mem_nil, or_false, not_or]
  case case1 => exact zero_ne_ofNat (by omega)
  case case2 => exact ⟨zero_ne_ofNat (by omega), zero_ne_ofNat (by omega)⟩
  case case3 => exact ⟨zero_ne_ofNat (by omega), zero_ne_ofNat (by omega), zero_ne_ofNat (by omega)⟩
  case case4 =>
    exact ⟨zero_ne_ofNat (by omega), zero_ne_ofNat (by omega), zero_ne_ofNat (by omega), zero_ne_ofNat (by omega)⟩

/-- A reader gets the text up to its first NUL, whatever follows the terminator. -/
theorem read_encode (text : List Char) (rest : List UInt8) :
    read (encode text ++ 0 :: rest) = encode (upTo '\x00' text) := by
  induction text with
  | nil => exact upTo_cons_self 0 rest
  | cons c text ih =>
    unfold read encode at ih ⊢
    rw [List.flatMap_cons, List.append_assoc]
    by_cases hc : c = '\x00'
    · subst hc
      rw [upTo_cons_self]
      exact upTo_cons_self 0 _
    · rw [upTo_append (zero_not_mem_utf8EncodeChar hc), ih, upTo_cons hc, List.flatMap_cons]

/-- A reader of just the bytes of the text gets as much. -/
theorem read_slice (text : List Char) : read (encode text) = encode (upTo '\x00' text) := by
  rw [← read_encode text [], read, read, upTo_append_self]

theorem decode_read (text : List Char) (rest : List UInt8) :
    decode (read (encode text ++ 0 :: rest)) = some (upTo '\x00' text) := by
  rw [read_encode, decode_encode]

/-! ### Where a text can be split -/

/-- A byte below 128 is a character of its own. -/
theorem utf8EncodeChar_ascii {c : Char} {b : UInt8} {l : List UInt8} (h : String.utf8EncodeChar c = b :: l)
    (hb : b.toNat < 128) : c.val.toNat = b.toNat ∧ l = [] := by
  revert h
  fun_cases String.utf8EncodeChar c <;> rintro ⟨rfl, rfl⟩ <;> rw [UInt8.toNat_ofNat'] at hb
  case case1 => exact ⟨by rw [UInt8.toNat_ofNat']; omega, rfl⟩
  all_goals omega

/-- The bytes after the first of a character are 128 or more. -/
theorem le_of_mem_utf8EncodeChar_tail {c : Char} {b : UInt8} (h : b ∈ (String.utf8EncodeChar c).tail) :
    128 ≤ b.toNat := by
  have hof {n : Nat} (hb : b = UInt8.ofNat n) (hn : 128 ≤ n % 256) : 128 ≤ b.toNat := by
    rw [hb, UInt8.toNat_ofNat']; exact hn
  revert h
  fun_cases String.utf8EncodeChar c <;> simp only [List.tail_cons, List.mem_cons, List.not_mem_nil, or_false]
  case case1 => exact False.elim
  case case2 => exact fun h => hof h (by omega)
  case case3 => rintro (h | h) <;> exact hof h (by omega)
  case case4 => rintro (h | h | h) <;> exact hof h (by omega)

theorem encode_append (s t : List Char) : encode (s ++ t) = encode s ++ encode t := List.flatMap_append

/-- A text whose bytes are split at a byte below 128 is split there. -/
theorem encode_split {b : UInt8} (hb : b.toNat < 128) : ∀ {text : List Char} {front back : List UInt8},
    encode text = front ++ b :: back → ∃ s t, text = s ++ t ∧ front = encode s ∧ b :: back = encode t
  | [], front, back, h => by
    have := congrArg List.length h
    simp [encode] at this
  | c :: text, front, back, h => by
    have hcons : String.utf8EncodeChar c ++ encode text = front ++ b :: back := h
    rcases List.append_eq_append_iff.1 hcons with ⟨front', rfl, hrest⟩ | ⟨mid, hchar, hback⟩
    · obtain ⟨s, t, rfl, rfl, ht⟩ := encode_split hb hrest
      exact ⟨c :: s, t, rfl, rfl, ht⟩
    · cases front with
      | nil => exact ⟨[], c :: text, rfl, rfl, h.symm⟩
      | cons a front =>
        cases mid with
        | nil =>
          rw [List.append_nil] at hchar
          exact ⟨[c], text, rfl, by simp [encode, hchar], hback⟩
        | cons b' mid =>
          -- the byte would be one after the first of the character
          have hmem : b' ∈ (String.utf8EncodeChar c).tail := by rw [hchar]; simp
          have := le_of_mem_utf8EncodeChar_tail hmem
          cases hback
          omega

/-! ## Arrays in memory -/

/-- What a reader of the array at the start of `mem` gets. -/
def entries {α : Type} : List (Option α) → List α
  | some a :: mem => a :: entries mem
  | _ => []

theorem entries_terminated {α : Type} (l : List α) (rest : List (Option α)) :
    entries (l.map some ++ none :: rest) = l := by
  induction l with
  | nil => rfl
  | cons a l ih =>
    show a :: entries (l.map some ++ none :: rest) = a :: l
    rw [ih]

end Lib.CString
