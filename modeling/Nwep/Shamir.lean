/-
`shamir`: the shares of a secret pass through one flat buffer in each direction. `split` slices what
the library wrote, `combine` joins what the library reads, and the stride is counted on this side.
-/
import Nwep.Boundary
import Nwep.Lib.Flat
import Mathlib.Data.List.Nodup

namespace Nwep.Shamir

open Lib Lib.Flat

/-- The library calls, each with the room of its output buffer. -/
inductive Call where
  | split (secret : Bytes) (secretLen t n outlen : Nat)
  | combine (shares : Bytes) (nShares shareLen outlen : Nat)
deriving Repr, DecidableEq

abbrev Prog (ε α : Type) := Py ε Call Unit α

variable {ε : Type}

/-- `split`; the buffer is sized with the number of shares before the threshold is converted. -/
def split (secret : Bytes) (threshold shares : Arg ε Nat) : Prog ε (List Bytes) :=
  if secret.isEmpty then throw (.valueError "cannot split an empty secret")
  else do
    let shareLen := 1 + secret.length
    let shares ← arg shares
    let total := shares * shareLen
    let threshold ← arg threshold
    checkedCall (.split secret secret.length threshold shares total) fun ret =>
      let blob := written ret
      (List.range shares).map fun i => slice blob (i * shareLen) ((i + 1) * shareLen)

/-- `combine`. -/
def combine (shares : List Bytes) : Prog ε Bytes :=
  match shares with
  | [] => throw (.valueError "combine needs at least one share")
  | share :: _ =>
    let shareLen := share.length
    if shares.any fun s => s.length ≠ shareLen then throw (.valueError "all shares must be the same length")
    else checkedCall (.combine shares.flatten shares.length shareLen shareLen) written

/-! ## What the library does -/

/-- The index byte of a share. -/
def index (share : Bytes) : Option UInt8 := share.head?

/-- A secret's `n` shares. -/
structure Sharing (secret : Bytes) (n : Nat) where
  shares : List Bytes
  count : shares.length = n
  size : ∀ s ∈ shares, s.length = 1 + secret.length
  distinct : (shares.map index).Nodup

/-- The call succeeded and wrote `out`. -/
structure Gave (out : Bytes) (ret : Ret) : Prop where
  rc : 0 ≤ ret.rc
  len : ret.out = out.length
  data : out <+: ret.data

variable {secret : Bytes} {n : Nat}

/-- A split call within its limits and with enough room writes the shares back to back. -/
def Splits (p : Sharing secret n) (t : Nat) : Call × Ret → Prop
  | (.split buf len t' n' cap, ret) =>
    buf.take len = secret → secret ≠ [] → t' = t → n' = n → 2 ≤ t → t ≤ n → n ≤ 255 →
      n * (1 + secret.length) ≤ cap → Gave p.shares.flatten ret
  | _ => True

/-- A combine call that reads at least `t` of the shares, with distinct indices, gives the secret. -/
def Recovers (p : Sharing secret n) (t : Nat) : Call × Ret → Prop
  | (.combine buf count stride cap, ret) =>
    ∀ read, Reads stride count buf read → read ⊆ p.shares → (read.map index).Nodup → t ≤ count →
      secret.length ≤ cap → Gave secret ret
  | _ => True

theorem Gave.written {out : Bytes} {ret : Ret} (h : Gave out ret) : written ret = out := by
  obtain ⟨rest, hr⟩ := h.data
  unfold Nwep.written
  rw [h.len, ← hr, List.take_left]

/-! ## Splitting -/

/-- The call `split` makes. -/
def splitCall (secret : Bytes) (t n : Nat) : Call := .split secret secret.length t n (n * (1 + secret.length))

theorem split_eq (hs : secret ≠ []) (t n : Nat) (w : World Call Ret Unit) :
    (split secret (.ok t) (.ok n) : Prog ε _) w =
      (checkedCall (splitCall secret t n) fun ret => items (1 + secret.length) n (written ret) : Prog ε _) w := by
  unfold split
  rw [if_neg (by simpa using hs), bind_of_ok (arg_ok n w), bind_of_ok (arg_ok t w)]
  simp only [slice_item]
  rfl

theorem split_calls (hs : secret ≠ []) (t n : Nat) (w : World Call Ret Unit) :
    callsOf (split secret (.ok t) (.ok n) : Prog ε _) w = [(splitCall secret t n, w.ret w.log.length)] := by
  apply callsOf_called
  unfold after
  rw [split_eq hs]
  exact after_checkedCall _ _ w

/-- What the library wrote comes back share by share. -/
theorem split_ok {t : Nat} {w : World Call Ret Unit} (p : Sharing secret n) (hs : secret ≠ [])
    (h : Gave p.shares.flatten (w.ret w.log.length)) :
    (split secret (.ok t) (.ok n) : Prog ε _) w = .ok p.shares (w.called (splitCall secret t n)) := by
  rw [split_eq hs, checkedCall_ok _ _ h.rc, h.written]
  have hitems := items_flatten p.size
  rw [p.count] at hitems
  rw [hitems]

/-! ## Combining -/

/-- The call `combine` makes for shares of length `k`. -/
def combineCall (shares : List Bytes) (k : Nat) : Call := .combine shares.flatten shares.length k k

theorem combine_cons (share : Bytes) (rest : List Bytes) :
    (combine (share :: rest) : Prog ε _) =
      if (share :: rest).any (fun s => s.length ≠ share.length) then
        throw (.valueError "all shares must be the same length")
      else checkedCall (combineCall (share :: rest) share.length) written := rfl

theorem combine_eq {shares : List Bytes} {k : Nat} (hne : shares ≠ []) (hk : ∀ s ∈ shares, s.length = k) :
    (combine shares : Prog ε _) = checkedCall (combineCall shares k) written := by
  cases shares with
  | nil => exact absurd rfl hne
  | cons share rest =>
    have hshare : share.length = k := hk share List.mem_cons_self
    have hall : ¬ (share :: rest).any (fun s => s.length ≠ share.length) = true := by
      simp only [List.any_eq_true, not_exists, not_and]
      intro s hs
      rw [hk s hs, hshare]
      simp
    rw [combine_cons, if_neg hall, hshare]

theorem combine_raises {shares : List Bytes} (h : shares = [] ∨ ∃ s ∈ shares, ∃ s' ∈ shares, s.length ≠ s'.length)
    (w : World Call Ret Unit) : ∃ message, (combine shares : Prog ε _) w = .error (.valueError message) w := by
  cases shares with
  | nil => exact ⟨_, rfl⟩
  | cons share rest =>
    rcases h with h | ⟨s, hs, s', hs', hne⟩
    · cases h
    have hany : (share :: rest).any (fun s => s.length ≠ share.length) = true := by
      rw [List.any_eq_true]
      by_cases hlen : s.length = share.length
      · exact ⟨s', hs', by rw [← hlen]; simpa using Ne.symm hne⟩
      · exact ⟨s, hs, by simpa using hlen⟩
    rw [combine_cons, if_pos hany]
    exact ⟨_, rfl⟩

/-- Shares of a sharing, each taken once, have distinct indices. -/
theorem Sharing.distinct_of_nodup (p : Sharing secret n) {sub : List Bytes} (hd : sub.Nodup) (hsub : sub ⊆ p.shares) :
    (sub.map index).Nodup :=
  hd.map_on fun _ ha _ hb hab => List.inj_on_of_nodup_map p.distinct (hsub ha) (hsub hb) hab

/-- What `combine` passes for some of the shares is read back as these shares. -/
theorem Sharing.reads (p : Sharing secret n) {sub : List Bytes} (hsub : sub ⊆ p.shares) :
    Reads (1 + secret.length) sub.length sub.flatten sub := reads_flatten fun s hs => p.size s (hsub hs)

theorem combine_ok {t : Nat} (ht : 2 ≤ t) (p : Sharing secret n) {sub : List Bytes} (hd : sub.Nodup)
    (hsub : sub ⊆ p.shares) (hlen : t ≤ sub.length) {v : World Call Ret Unit}
    (hr : ∀ c ∈ callsOf (combine sub : Prog ε _) v, Recovers p t c) :
    (combine sub : Prog ε _) v = .ok secret (v.called (combineCall sub (1 + secret.length))) := by
  have hne : sub ≠ [] := by
    rintro rfl
    rw [List.length_nil] at hlen; omega
  rw [combine_eq hne fun s hs => p.size s (hsub hs)] at hr ⊢
  rw [callsOf_called (after_checkedCall _ _ v)] at hr
  have hgave : Gave secret (v.ret v.log.length) :=
    hr _ List.mem_cons_self sub (p.reads hsub) hsub (p.distinct_of_nodup hd hsub) hlen (by omega)
  rw [checkedCall_ok _ _ hgave.rc, hgave.written]

/-! ## Splitting and combining -/

/-- Splitting and combining undo each other: `split` returns the shares the library wrote, `combine`
returns the secret for at least `t` of them in any order, and no list of shares of unequal length, nor the
empty list, reaches the library. -/
theorem split_combine {t : Nat} (hs : secret ≠ []) (ht : 2 ≤ t) (htn : t ≤ n) (hn : n ≤ 255)
    (w : World Call Ret Unit) (p : Sharing secret n)
    (hw : ∀ c ∈ callsOf (split secret (.ok t) (.ok n) : Prog ε _) w, Splits p t c) :
    (split secret (.ok t) (.ok n) : Prog ε _) w = .ok p.shares (w.called (splitCall secret t n)) ∧
    (∀ sub (v : World Call Ret Unit), sub.Nodup → sub ⊆ p.shares → t ≤ sub.length →
      (∀ c ∈ callsOf (combine sub : Prog ε _) v, Recovers p t c) →
      (combine sub : Prog ε _) v = .ok secret (v.called (combineCall sub (1 + secret.length)))) ∧
    ∀ shares (v : World Call Ret Unit), (shares = [] ∨ ∃ s ∈ shares, ∃ s' ∈ shares, s.length ≠ s'.length) →
      ∃ message, (combine shares : Prog ε _) v = .error (.valueError message) v := by
  refine ⟨?_, fun sub v hd hsub hlen hr => combine_ok ht p hd hsub hlen hr, fun shares v h => combine_raises h v⟩
  rw [split_calls hs] at hw
  exact split_ok p hs (hw _ List.mem_cons_self List.take_length hs rfl rfl ht htn hn (Nat.le_refl _))

/-- Three shares of a one-byte secret. -/
def three : Sharing [7] 3 where
  shares := [[1, 7], [2, 7], [3, 7]]
  count := rfl
  size := by decide
  distinct := by decide

/-- A library that first writes them, then the secret. -/
def dealer : World Call Ret Unit :=
  { objs := (), ret := fun i => if i = 0 then ⟨0, 6, [1, 7, 2, 7, 3, 7]⟩ else ⟨0, 1, [7]⟩, log := [] }

theorem split_combine_three :
    (split [7] (.ok 2) (.ok 3) : Prog Empty _) dealer = .ok three.shares (dealer.called (splitCall [7] 2 3)) ∧
    (combine [[3, 7], [1, 7]] : Prog Empty _) (dealer.called (splitCall [7] 2 3)) =
      .ok [7] ((dealer.called (splitCall [7] 2 3)).called (combineCall [[3, 7], [1, 7]] 2)) := by
  have h := split_combine (ε := Empty) (n := 3) (t := 2) (by decide) (by decide) (by decide)
    (by decide) dealer three (fun c hc => by
      rw [split_calls (by decide), List.mem_singleton] at hc
      subst hc
      intro _ _ _ _ _ _ _ _
      exact ⟨by decide, rfl, ⟨[], rfl⟩⟩)
  refine ⟨h.1, h.2.1 [[3, 7], [1, 7]] _ (by decide) (by decide) (by decide) fun c hc => ?_⟩
  rw [combine_eq (k := 2) (by decide) (by decide), callsOf_called (after_checkedCall _ _ _), List.mem_singleton] at hc
  subst hc
  intro _ _ _ _ _ _
  exact ⟨by decide, rfl, ⟨[], rfl⟩⟩

end Nwep.Shamir
