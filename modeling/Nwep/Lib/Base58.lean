/-
Bytes as a number written with 58 letters and digits: the number's digits, after one `1` for each zero byte in
front. Its zeros are the digit 0 again, so the text has the value of the bytes, and with their count gives them
back.
-/
import Mathlib.Data.Nat.Digits.Lemmas

namespace Lib.Base58

def alphabet : List Char := "123456789ABCDEFGHJKLMNPQRSTUVWXYZabcdefghijkmnopqrstuvwxyz".toList

def digit (d : Nat) : Char := alphabet.getD d '1'

/-- The number that the bytes are, the first the most significant. -/
def value (bytes : List UInt8) : Nat := Nat.ofDigits 256 (bytes.reverse.map UInt8.toNat)

/-- The number that the text is. -/
def number (text : List Char) : Nat := Nat.ofDigits 58 (text.reverse.map alphabet.idxOf)

def encode (bytes : List UInt8) : List Char :=
  List.replicate (bytes.takeWhile (· = 0)).length '1' ++ (Nat.digits 58 (value bytes)).reverse.map digit

/-- So many bytes of the number that the text is. -/
def decode (size : Nat) (text : List Char) : List UInt8 :=
  (Nat.digitsAppend 256 size (number text)).reverse.map UInt8.ofNat

theorem digit_mem (d : Nat) : digit d ∈ alphabet := by
  unfold digit
  rw [List.getD_eq_getElem?_getD]
  cases h : alphabet[d]? with
  | none => decide
  | some c => exact List.mem_of_getElem? h

theorem idxOf_digit {d : Nat} (h : d < 58) : alphabet.idxOf (digit d) = d := by
  have hall : ∀ d < 58, alphabet.idxOf (digit d) = d := by decide
  exact hall d h

theorem mem_encode {c : Char} {bytes : List UInt8} (h : c ∈ encode bytes) : c ∈ alphabet := by
  rcases List.mem_append.1 h with h | h
  · rw [List.eq_of_mem_replicate h]; decide
  · obtain ⟨d, -, rfl⟩ := List.mem_map.1 h
    exact digit_mem d

/-- The text has the value of the bytes. -/
theorem number_encode (bytes : List UInt8) : number (encode bytes) = value bytes := by
  have hdigits : ((Nat.digits 58 (value bytes)).map digit).map alphabet.idxOf = Nat.digits 58 (value bytes) := by
    rw [List.map_map]
    calc (Nat.digits 58 (value bytes)).map (alphabet.idxOf ∘ digit)
        = (Nat.digits 58 (value bytes)).map id :=
          List.map_congr_left fun d hd => idxOf_digit (Nat.digits_lt_base (by decide) hd)
      _ = Nat.digits 58 (value bytes) := List.map_id _
  unfold number encode
  rw [List.reverse_append, List.reverse_replicate, List.map_reverse, List.reverse_reverse, List.map_append, hdigits,
    List.map_replicate]
  show Nat.ofDigits 58 (Nat.digits 58 (value bytes) ++ List.replicate _ 0) = value bytes
  rw [Nat.ofDigits_append_replicate_zero, Nat.ofDigits_digits]

theorem decode_encode (bytes : List UInt8) : decode bytes.length (encode bytes) = bytes := by
  have hlen : (bytes.reverse.map UInt8.toNat).length = bytes.length := by rw [List.length_map, List.length_reverse]
  have hlt : ∀ n ∈ bytes.reverse.map UInt8.toNat, n < 256 := by
    intro n hn
    obtain ⟨b, -, rfl⟩ := List.mem_map.1 hn
    exact b.toNat_lt
  have hdigits : Nat.digitsAppend 256 bytes.length (value bytes) = bytes.reverse.map UInt8.toNat :=
    (Nat.setInvOn_digitsAppend_ofDigits (by decide) bytes.length).1 ⟨hlen, hlt⟩
  unfold decode
  rw [number_encode, hdigits, ← List.map_reverse, List.reverse_reverse, List.map_map]
  exact List.map_id'' (fun b => UInt8.ofNat_toNat) _

end Lib.Base58
