/-
The buffers that the library reads without being told how long they are: keys, node ids, addresses,
commitments, Merkle roots, and arrays of which it is told the number of entries only.

Some belong to objects of a fixed size, others are byte strings of the caller, which a length check stands
before. On every run each of them is as long as what the library reads at it.
-/
import Nwep.Native.Ownership

namespace Nwep.Native

open Lib Flat

variable {ε : Type}

/-! ## What the library reads -/

/-- What is read at a pointer that comes without a length: an object of `n` bytes, one or none where the
library takes `NULL`, or an array of such objects, whose number is the next parameter. -/
inductive Extent where
  | one (n : Nat)
  | optional (n : Nat)
  | array (n : Nat)
deriving Repr, DecidableEq

/-- The pointers among a function's parameters, by their positions. -/
def Fn.extents : Fn → List (Nat × Extent)
  | clientStreamVerify => [(1, .one Stream.pubkeySize)]
  | dhtAttach => [(0, .array Dht.bootstrapSize)]
  | dhtAnnounce => [(0, .one addressSize)]
  | dhtStartLookup | dhtLookupResult => [(0, .one nodeidSize)]
  | cachePutSigned => [(3, .one Cache.pubkeySize)]
  | cacheGetSigned => [(2, .one Cache.pubkeySize)]
  | trustStoreLoadGenesisAnchors => [(0, .array TrustStore.blsPubkeySize)]
  | trustStoreVerifyKey => [(1, .one nodeidSize), (2, .optional TrustStore.commitmentSize)]
  | trustStoreVerifyKeyBinding => [(0, .one nodeidSize), (1, .one TrustStore.pubkeySize)]
  | anchorNodeCollectLogRoot => [(1, .one AnchorNode.rootSize), (3, .one AnchorNode.rootSize)]
  | anchorNodeDispatch => [(0, .one nodeidSize), (1, .array nodeidSize)]
  | anchorNodeProducePartialSig => [(1, .one AnchorNode.rootSize)]
  | _ => []

/-- The same of the constructors. -/
def Make.extents : Make → List (Nat × Extent)
  | clientConnect | clientConnectFd | clientConnectByNodeid | clientConnectAsync | clientConnectFdAsync =>
    [(1, .one nodeidSize)]
  | anchorNodeCreate =>
    [(0, .one pubkeySize), (1, .one privkeySize), (2, .one Trust.blsSeckeySize), (3, .one TrustStore.blsPubkeySize)]
  | _ => []

/-- The `i`-th parameter is exactly what is read there. -/
def Extent.Fits (vals : List Val) (i : Nat) : Extent → Prop
  | one n => ∃ b, vals[i]? = some (.bytes b) ∧ b.length = n
  | optional n => vals[i]? = some .null ∨ ∃ b, vals[i]? = some (.bytes b) ∧ b.length = n
  | array n => ∃ b, ∃ k : Nat, vals[i]? = some (.bytes b) ∧ vals[i + 1]? = some (.int k) ∧ b.length = k * n

def InBounds (extents : List (Nat × Extent)) (vals : List Val) : Prop := ∀ x ∈ extents, x.2.Fits vals x.1

/-! ## Parameters -/

section Params

variable {m : Method ε} {vals : List Val} {params : List (Param ε)} {i n : Nat} {a : Arg ε Bytes} {name : String}

/-- Where the parameters convert, the length checks passed. -/
theorem Method.params_ok (h : m.params = .ok vals) :
    (∀ x ∈ m.checks, x = .ok ()) ∧ List.Forall₂ (fun a v => a = .ok v) m.args vals := by
  unfold Method.params at h
  cases hc : m.checks.forM id with
  | error e => rw [hc] at h; cases h
  | ok u =>
    rw [hc] at h
    exact ⟨Trust.forM_id_ok hc, mapM_ok h⟩

end Params

/-! ## The methods -/

section Methods

variable {k : Cls} {m : Method ε} {vals : List Val}

end Methods

/-! ## Programs -/

/-- The calls made from `v` to `v'` are in bounds. -/
abbrev Bounded : Heap → Heap → Prop := Calls fun c => InBounds c.1.fn.extents c.1.args

section Programs

variable {w : Wrapper} {v v' : Heap} {m : Method ε}

theorem Bounded.of_log (h : v'.log = v.log) : Bounded v v' :=
  ⟨[], h.trans (List.append_nil _).symm, fun c hc => by cases hc⟩

end Programs

/-! ## Constructors -/

/-- The calls a constructor made from `v` to `v'` are in bounds. -/
abbrev Furnished : Workshop → Workshop → Prop := Calls fun c => InBounds c.1.fn.extents c.1.args

section Constructors

variable {fn : Make} {params : List (Param ε)}

end Constructors

/-! ## Whole runs -/

namespace Roster

section

variable {s s' : Roster} {make ret : Nat → Ret} {as : List (Act ε)}

/-- The calls of an act are in bounds. -/
structure Within (s s' : Roster) : Prop where
  heap : Bounded s.heap s'.heap
  building : Furnished s.building s'.building

theorem Within.refl (s : Roster) : Within s s := ⟨Std.Refl.refl _, Std.Refl.refl _⟩

/-- A new object makes no call. -/
theorem Within.add (o : Owner) (h : Within s s') : Within s (s'.add o) :=
  ⟨IsTrans.trans _ _ _ h.heap (.of_log rfl), h.building⟩

theorem Within.ran {x : Prog ε Value} (k : Cls) (h : Bounded s.heap (after x s.heap)) : Within s (s.ran x k) := by
  have hw : Within s { s with heap := after x s.heap } := ⟨h, Std.Refl.refl _⟩
  unfold Roster.ran
  split
  · exact hw.add _
  · exact hw

/-- Every call made so far is in bounds. -/
def CallsInBounds (s : Roster) : Prop :=
  (∀ c ∈ s.heap.log, InBounds c.1.fn.extents c.1.args) ∧ ∀ c ∈ s.building.log, InBounds c.1.fn.extents c.1.args

theorem Within.keeps (h : Within s s') (hs : s.CallsInBounds) : s'.CallsInBounds := by
  obtain ⟨⟨cs, hlog, hcs⟩, ⟨ds, hmade, hds⟩⟩ := h
  constructor
  · intro c hc
    rw [hlog] at hc
    rcases List.mem_append.1 hc with hc | hc
    · exact hs.1 c hc
    · exact hcs c hc
  · intro c hc
    rw [hmade] at hc
    rcases List.mem_append.1 hc with hc | hc
    · exact hs.2 c hc
    · exact hds c hc

end

end Roster

end Nwep.Native
