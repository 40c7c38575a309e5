/-
Text at the boundary: `str.encode("utf-8")`, and what the C side reads where it gets a `const char *`
and no length. A lone surrogate raises; every other character arrives, up to the first NUL.
-/
import Nwep.Boundary
import Nwep.Lib.CString
import Mathlib.Data.List.Forall2

namespace Nwep.Text

open Lib CString

/-! ## Python strings -/

/-- An element of a `str`. -/
inductive CodePoint where
  | scalar (c : Char)
  | surrogate (n : Fin 2048)
deriving Repr, DecidableEq

abbrev Str := List CodePoint

def nul : CodePoint := .scalar '\x00'

/-- The `str` of these characters. -/
def ofChars (text : List Char) : Str := text.map .scalar

variable {ε : Type}

/-- `s.encode("utf-8")`. -/
def encode (unicodeError : ε) : Str → Arg ε Bytes
  | [] => .ok []
  | .scalar c :: s => (encode unicodeError s).map (String.utf8EncodeChar c ++ ·)
  | .surrogate _ :: _ => .error unicodeError

/-- What the C side reads at a pointer to the bytes, which Python stores with a NUL after them. -/
def cRead (b : Bytes) : Option Str := (decode (read (b ++ [0]))).map (·.map .scalar)

section

variable {unicodeError : ε}

/-- Only text without lone surrogates is encoded. -/
theorem encode_ok {s : Str} {b : Bytes} (h : encode unicodeError s = .ok b) :
    ∃ text : List Char, s = text.map .scalar ∧ b = CString.encode text := by
  induction s generalizing b with
  | nil => cases h; exact ⟨[], rfl, rfl⟩
  | cons p s ih =>
    cases p with
    | surrogate n => cases h
    | scalar c =>
      unfold encode at h
      cases hs : encode unicodeError s with
      | error e => rw [hs] at h; cases h
      | ok b' =>
        rw [hs] at h
        cases h
        obtain ⟨text, rfl, rfl⟩ := ih hs
        exact ⟨c :: text, rfl, rfl⟩

theorem scalar_injective : Function.Injective CodePoint.scalar := fun _ _ h => CodePoint.scalar.inj h

/-- The C side reads a string up to its first NUL. -/
theorem cRead_encode {s : Str} {b : Bytes} (h : encode unicodeError s = .ok b) : cRead b = some (upTo nul s) := by
  obtain ⟨text, rfl, rfl⟩ := encode_ok h
  unfold cRead nul
  rw [decode_read, Option.map_some, upTo_map scalar_injective]

/-- The strings `ts` were encoded as `bs`. -/
abbrev Encoded (unicodeError : ε) (ts : List Str) (bs : List Bytes) : Prop :=
  List.Forall₂ (fun s b => encode unicodeError s = .ok b) ts bs

theorem Encoded.read {ts : List Str} {bs : List Bytes} (h : Encoded unicodeError ts bs) :
    bs.map cRead = ts.map fun s => some (upTo nul s) := by
  induction h with
  | nil => rfl
  | cons hs _ ih => rw [List.map_cons, List.map_cons, ih, cRead_encode hs]

/-- Strings are read in full if and only if none has a NUL. -/
theorem Encoded.read_eq_iff {ts : List Str} {bs : List Bytes} (h : Encoded unicodeError ts bs) :
    bs.map cRead = ts.map some ↔ ∀ s ∈ ts, nul ∉ s := by
  rw [h.read, List.map_inj_left]
  simp only [Option.some.injEq, upTo_eq_self]

/-- Strings are read as the same text if and only if they agree up to their first NULs. -/
theorem Encoded.same_iff {ts ts' : List Str} {bs bs' : List Bytes} (h : Encoded unicodeError ts bs)
    (h' : Encoded unicodeError ts' bs') :
    bs.map cRead = bs'.map cRead ↔ ts.map (upTo nul) = ts'.map (upTo nul) := by
  have hsome : ∀ l : List Str, (l.map fun s => some (upTo nul s)) = (l.map (upTo nul)).map some := fun l => by
    rw [List.map_map]; rfl
  rw [h.read, h'.read, hsome, hsome]
  exact (List.map_injective_iff.2 fun _ _ h => Option.some.inj h).eq_iff

/-- Only a lone surrogate makes the encoding raise. -/
theorem encode_error_iff {s : Str} : (∃ e, encode unicodeError s = .error e) ↔ ∃ n, .surrogate n ∈ s := by
  induction s with
  | nil => exact ⟨fun ⟨_, h⟩ => (by cases h), fun ⟨_, h⟩ => (by cases h)⟩
  | cons p s ih =>
    cases p with
    | surrogate n => exact ⟨fun _ => ⟨n, List.mem_cons_self⟩, fun _ => ⟨_, rfl⟩⟩
    | scalar c =>
      have hmem : (∃ n, CodePoint.surrogate n ∈ CodePoint.scalar c :: s) ↔ ∃ n, .surrogate n ∈ s := by
        simp only [List.mem_cons, reduceCtorEq, false_or]
      have hstep : encode unicodeError (.scalar c :: s) = (encode unicodeError s).map (String.utf8EncodeChar c ++ ·) :=
          rfl
      rw [hmem, ← ih, hstep]
      cases encode unicodeError s with
      | ok b => exact ⟨fun ⟨_, h⟩ => (by cases h), fun ⟨_, h⟩ => (by cases h)⟩
      | error e => exact ⟨fun _ => ⟨e, rfl⟩, fun _ => ⟨e, rfl⟩⟩

end

/-! ## Header arrays -/

/-- The header argument: the items of a mapping or of a sequence, none for `None`. -/
def headersArg (unicodeError : ε) (headers : Option (List (Str × Str))) : HeadersArg ε :=
  .ok ((headers.getD []).map fun p => (encode unicodeError p.1, encode unicodeError p.2))

/-- What the C side reads of the array: the entries before the first `NULL` name, none at `NULL`. -/
def cHeaders (array : Option (List (Bytes × Bytes))) : List (Option Str × Option Str) :=
  match array with
  | none => []
  | some pairs => (entries (pairs.map some ++ [none])).map fun p => (cRead p.1, cRead p.2)

section

variable {κ σ : Type} {unicodeError : ε}

/-- The conversion of one item. -/
def pair (p : Arg ε Bytes × Arg ε Bytes) : Arg ε (Bytes × Bytes) := do
  let name ← p.1
  let value ← p.2
  return (name, value)

theorem arg_pair (p : Arg ε Bytes × Arg ε Bytes) (w : World κ Ret σ) :
    (do let cname ← arg p.1
        let cvalue ← arg p.2
        return (cname, cvalue) : Py ε κ σ _) w = arg (pair p) w := by
  obtain ⟨name, value⟩ := p
  cases name with
  | error e => rfl
  | ok n =>
    cases value with
    | error e => rfl
    | ok v => rfl

/-- `encode_headers` as one conversion. -/
def headerArray (headers : HeadersArg ε) : Arg ε (Option (List (Bytes × Bytes))) := do
  let items ← headers
  if items.isEmpty then return none
  else
    let array ← items.mapM pair
    return some array

theorem encodeHeaders_eq (headers : HeadersArg ε) (w : World κ Ret σ) :
    (encodeHeaders headers : Py ε κ σ _) w = arg (headerArray headers) w := by
  unfold encodeHeaders
  cases headers with
  | error e => rfl
  | ok items =>
    rw [bind_of_ok (arg_ok items w)]
    have hloop := mapM_eq_arg (κ := κ) (σ := σ) arg_pair w items
    show (if items.isEmpty = true then (_ : Py ε κ σ _) else _) w =
      arg (if items.isEmpty = true then (_ : Arg ε _) else _) w
    by_cases hi : items.isEmpty = true
    · rw [if_pos hi, if_pos hi]; rfl
    · rw [if_neg hi, if_neg hi]
      cases hm : items.mapM pair with
      | error e =>
        rw [hm] at hloop
        exact bind_of_error (hloop.trans (arg_error e w)) _
      | ok array =>
        rw [hm] at hloop
        exact bind_of_ok (hloop.trans (arg_ok array w)) _

theorem pair_ok {n v : Arg ε Bytes} {b : Bytes × Bytes} (h : pair (n, v) = .ok b) : n = .ok b.1 ∧ v = .ok b.2 := by
  cases n with
  | error e => cases h
  | ok n =>
    cases v with
    | error e => cases h
    | ok v => cases h; exact ⟨rfl, rfl⟩

theorem pair_error {n v : Arg ε Bytes} {e : ε} (h : pair (n, v) = .error e) :
    (∃ e, n = .error e) ∨ ∃ e, v = .error e := by
  cases n with
  | error e => exact .inl ⟨e, rfl⟩
  | ok n =>
    cases v with
    | error e => exact .inr ⟨e, rfl⟩
    | ok v => cases h

/-- A string of the header has a lone surrogate. -/
def Lone (p : Str × Str) : Prop := (∃ n, .surrogate n ∈ p.1) ∨ ∃ n, .surrogate n ∈ p.2

/-- The encoding of a header list raises for a lone surrogate, else it has the pairs in their order. -/
theorem headerArray_cases (unicodeError : ε) (headers : Option (List (Str × Str))) :
    ((∃ p ∈ headers.getD [], Lone p) ∧ ∃ e, headerArray (headersArg unicodeError headers) = .error e) ∨
    ∃ pairs : List (Bytes × Bytes),
      List.Forall₂ (fun p b => encode unicodeError p.1 = .ok b.1 ∧ encode unicodeError p.2 = .ok b.2)
        (headers.getD []) pairs ∧
      headerArray (headersArg unicodeError headers) = .ok (if (headers.getD []).isEmpty then none else some pairs) := by
  unfold headersArg
  generalize headers.getD [] = items
  have hstep : headerArray (.ok (items.map fun p => (encode unicodeError p.1, encode unicodeError p.2))) =
      if (items.map fun p => (encode unicodeError p.1, encode unicodeError p.2)).isEmpty then .ok none
      else ((items.map fun p => (encode unicodeError p.1, encode unicodeError p.2)).mapM pair).map some := rfl
  rw [hstep, List.isEmpty_map]
  cases hm : (items.map fun p => (encode unicodeError p.1, encode unicodeError p.2)).mapM pair with
  | ok pairs =>
    refine .inr ⟨pairs, (List.forall₂_map_left_iff.1 (mapM_ok hm)).imp fun _ _ => pair_ok, ?_⟩
    split <;> rfl
  | error e =>
    obtain ⟨_, hq, he⟩ := mapM_error hm
    obtain ⟨p, hp, rfl⟩ := List.mem_map.1 hq
    refine .inl ⟨⟨p, hp, (pair_error he).imp encode_error_iff.1 encode_error_iff.1⟩, e, ?_⟩
    rw [if_neg fun h => List.ne_nil_of_mem hp (List.isEmpty_iff.1 h)]
    rfl

section

variable {items : List (Str × Str)} {pairs : List (Bytes × Bytes)}
  (h : List.Forall₂ (fun p b => encode unicodeError p.1 = .ok b.1 ∧ encode unicodeError p.2 = .ok b.2) items pairs)

include h

theorem encoded_not_lone : ¬ ∃ p ∈ items, Lone p := by
  induction h with
  | nil => exact fun ⟨_, hp, _⟩ => List.not_mem_nil hp
  | cons hp _ ih =>
    rintro ⟨q, hq, hlone⟩
    rcases List.mem_cons.1 hq with rfl | hq
    · rcases hlone with hl | hl
      · obtain ⟨e, he⟩ := encode_error_iff.2 hl
        cases he.symm.trans hp.1
      · obtain ⟨e, he⟩ := encode_error_iff.2 hl
        cases he.symm.trans hp.2
    · exact ih ⟨q, hq, hlone⟩

/-- The C side reads every header, each string of it up to its first NUL. -/
theorem cHeaders_encoded :
    cHeaders (if items.isEmpty then none else some pairs) =
      items.map fun p => (some (upTo nul p.1), some (upTo nul p.2)) := by
  have hread : (pairs.map fun p => (cRead p.1, cRead p.2)) =
      items.map fun p => (some (upTo nul p.1), some (upTo nul p.2)) := by
    induction h with
    | nil => rfl
    | cons hp _ ih => rw [List.map_cons, List.map_cons, ih, cRead_encode hp.1, cRead_encode hp.2]
  cases items with
  | nil => rfl
  | cons p items =>
    show (entries (pairs.map some ++ none :: [])).map _ = _
    rw [entries_terminated, hread]

end

/-- The headers are rejected or read back in full if and only if one has a lone surrogate or none has a
NUL. -/
theorem encodeHeaders_kept_iff (headers : Option (List (Str × Str))) (w : World κ Ret σ) :
    ((∃ e, (encodeHeaders (headersArg unicodeError headers) : Py ε κ σ _) w = .error e w) ∨
      ∃ array, (encodeHeaders (headersArg unicodeError headers) : Py ε κ σ _) w = .ok array w ∧
        cHeaders array = (headers.getD []).map fun p => (some p.1, some p.2)) ↔
    (∃ p ∈ headers.getD [], Lone p) ∨ ∀ p ∈ headers.getD [], nul ∉ p.1 ∧ nul ∉ p.2 := by
  rw [encodeHeaders_eq]
  rcases headerArray_cases unicodeError headers with ⟨hlone, e, he⟩ | ⟨pairs, hall, ha⟩
  · rw [he]
    exact ⟨fun _ => .inl hlone, fun _ => .inl ⟨_, rfl⟩⟩
  · rw [ha, arg_ok]
    have hread := cHeaders_encoded hall
    have hiff : ((headers.getD []).map fun p => (some (upTo nul p.1), some (upTo nul p.2))) =
        ((headers.getD []).map fun p => (some p.1, some p.2)) ↔ ∀ p ∈ headers.getD [], nul ∉ p.1 ∧ nul ∉ p.2 := by
      rw [List.map_inj_left]
      simp only [Prod.mk.injEq, Option.some.injEq, upTo_eq_self]
    constructor
    · rintro (⟨e, he⟩ | ⟨array, hr, hc⟩)
      · cases he
      · cases hr
        exact .inr (hiff.1 (hread.symm.trans hc))
    · rintro (hlone | hn)
      · exact absurd hlone (encoded_not_lone hall)
      · exact .inr ⟨_, rfl, hread.trans (hiff.2 hn)⟩

end

/-! ## Text in calls -/

section

variable {κ : Type} {unicodeError : ε} {texts : κ → List Bytes} {ts : List Str} {calls : List (κ × Ret)}

/-- The calls that carry text are read as carrying the strings `ts`. -/
def Kept (texts : κ → List Bytes) (ts : List Str) (calls : List (κ × Ret)) : Prop :=
  ∀ c ∈ calls, texts c.1 ≠ [] → (texts c.1).map cRead = ts.map some

/-- The program was refused and no call carries text, or there is one that does and each such call carries
the encoded strings `ts`. -/
def Hands (unicodeError : ε) (texts : κ → List Bytes) (ts : List Str) (refused : Prop) (calls : List (κ × Ret)) :
    Prop :=
  (refused ∧ ∀ c ∈ calls, texts c.1 = []) ∨
  (¬ refused ∧ (∃ c ∈ calls, texts c.1 ≠ []) ∧ ∀ c ∈ calls, texts c.1 ≠ [] → Encoded unicodeError ts (texts c.1))

theorem Hands.kept_iff {refused : Prop} (h : Hands unicodeError texts ts refused calls) :
    Kept texts ts calls ↔ refused ∨ ∀ s ∈ ts, nul ∉ s := by
  rcases h with ⟨hr, hnone⟩ | ⟨hr, ⟨c, hc, hne⟩, hall⟩
  · exact ⟨fun _ => .inl hr, fun _ c hc hne => absurd (hnone c hc) hne⟩
  constructor
  · intro hk
    exact .inr ((hall c hc hne).read_eq_iff.1 (hk c hc hne))
  · rintro (hr' | hn) d hd hne'
    · exact absurd hr' hr
    · exact (hall d hd hne').read_eq_iff.2 hn

/-- What a refused or a passing program with one call hands over. -/
theorem hands_single {refused : Prop} {c : κ × Ret} (hr : ¬ refused) (hne : ts ≠ [])
    (hc : Encoded unicodeError ts (texts c.1)) : Hands unicodeError texts ts refused [c] := by
  refine .inr ⟨hr, ⟨c, List.mem_cons_self, fun h => ?_⟩, fun d hd _ => ?_⟩
  · rw [h] at hc
    exact hne (List.forall₂_nil_right_iff.1 hc)
  · rw [List.mem_singleton] at hd
    exact hd ▸ hc

theorem hands_nil {refused : Prop} (hr : refused) : Hands unicodeError texts ts refused [] :=
  .inl ⟨hr, fun _ hc => (by cases hc)⟩

/-- A refusal before any call, and what is handed over past it. -/
theorem hands_or {p refused : Prop} (hp : p → calls = []) (h : ¬ p → Hands unicodeError texts ts refused calls) :
    Hands unicodeError texts ts (p ∨ refused) calls := by
  by_cases hr : p
  · rw [hp hr]
    exact hands_nil (.inl hr)
  · rw [or_iff_right hr]
    exact h hr

/-- The conversion raises. -/
def Fails {α : Type} (a : Arg ε α) : Prop := ∃ e, a = .error e

theorem not_fails_ok {α : Type} (a : α) : ¬ Fails (.ok a : Arg ε α) := fun ⟨_, h⟩ => (by cases h)

section

variable {σ α β : Type} {refused : Prop} {w : World κ Ret σ}

theorem hands_called {x : Py ε κ σ α} {c : κ} (h : after x w = w.called c) (hne : ts ≠ [])
    (hc : Encoded unicodeError ts (texts c)) : Hands unicodeError texts ts False (callsOf x w) := by
  rw [callsOf_called h]
  exact hands_single id hne hc

/-- A conversion in the program refuses it when it raises. -/
theorem hands_arg {a : Arg ε α} {x : Py ε κ σ α} {f : α → Py ε κ σ β} (hx : x w = arg a w)
    (h : ∀ b, a = .ok b → Hands unicodeError texts ts refused (callsOf (f b) w)) :
    Hands unicodeError texts ts (Fails a ∨ refused) (callsOf (x >>= f) w) := by
  cases ha : a with
  | error e =>
    rw [ha] at hx
    rw [callsOf_bind_error (hx.trans (arg_error e w)) rfl]
    exact hands_nil (.inl ⟨e, rfl⟩)
  | ok b =>
    rw [ha] at hx
    rw [callsOf_bind_ok (hx.trans (arg_ok b w)) rfl, or_iff_right (not_fails_ok b)]
    exact h b ha

/-- The last conversion. -/
theorem hands_arg_last {a : Arg ε α} {x : Py ε κ σ α} {f : α → Py ε κ σ β} (hx : x w = arg a w)
    (h : ∀ b, a = .ok b → Hands unicodeError texts ts False (callsOf (f b) w)) :
    Hands unicodeError texts ts (Fails a) (callsOf (x >>= f) w) := by
  rw [← or_false (Fails a)]
  exact hands_arg hx h

end

end

end Nwep.Text
