/-
The threshold-signature arguments of `trust`: signatures, keys, secrets and share indices joined into
flat buffers, which the library reads by a fixed stride and one count.
-/
import Nwep.Native.Effect
import Nwep.Lib.Flat

namespace Nwep.Trust

open Lib Lib.Flat Native

/-- The library calls that take no handle. -/
inductive Call where
  | blsKeygen
  | zeroize (buf : Bytes) (len : Nat)
  | blsAggregate (sigs : Bytes) (n : Nat)
  | blsVerifyAggregate (aggSig pks : Bytes) (n : Nat) (msg : Bytes) (msgLen : Nat)
  | anchorFinishCheckpoint (epoch : Nat) (merkleRoot : Bytes) (logSize : Nat) (indices sigs : Bytes) (nPartials : Nat)
      (anchorBlsPks : Bytes) (nAnchors outlen : Nat)
  | genesisCheckpointCreate (blsSecrets blsPubkeys indices : Bytes) (nFounders threshold outlen : Nat)
deriving Repr, DecidableEq

/-- The state is whether the loaded library has the trust layer. -/
abbrev Prog (ε α : Type) := Py ε Call Bool α

def blsSeckeySize : Nat := 32
def blsSignatureSize : Nat := 96
def encodeCap : Nat := 4096

variable {ε : Type}

/-! ## Helpers -/

/-- `_require_trust`. -/
def requireTrust : Prog ε Unit := do
  if (← get).objs then return
  else throw (.runtimeError ("the trust layer needs the full libnwep.so (built with blst), but the " ++
    "trust-less libnwep_core.so is loaded because NWEP_LIB=core was set. " ++
    "unset it (the default loads libnwep.so), or point NWEP_LIB_DIR at a " ++
    "directory holding libnwep.so."))

/-- The loop that checks the items' lengths and appends them to a `bytearray`. -/
def gather (size : Nat) (name : String) (items : List Bytes) : Except (PyExc ε) Bytes :=
  items.foldlM (fun blob item => do
    expect (.ok item) size name
    return blob ++ item) []

/-- `bytes` of an iterable of ints. -/
def bytesOf (ints : List Int) : Except (PyExc ε) Bytes :=
  ints.mapM fun i =>
    if 0 ≤ i ∧ i < 256 then .ok (UInt8.ofNat i.toNat) else .error (.valueError "bytes must be in range(0, 256)")

/-! ## Keypairs -/

/-- `BlsKeypair`: its secret's buffer, its public key, and `_closed`. -/
structure BlsKeypair where
  sk : Bytes
  pk : Bytes
  closed : Bool
  sk_size : sk.length = blsSeckeySize
  pk_size : pk.length = TrustStore.blsPubkeySize

namespace BlsKeypair

/-- `generate`; the library writes the secret, then the public key. -/
def generate : Prog ε BlsKeypair := do
  requireTrust
  checkedCall .blsKeygen fun ret =>
    { sk := buffer blsSeckeySize ret.data, pk := buffer TrustStore.blsPubkeySize (ret.data.drop blsSeckeySize),
      closed := false
      sk_size := length_buffer _ _, pk_size := length_buffer _ _ }

/-- `close` wipes the secret. -/
def close (kp : BlsKeypair) : Prog ε BlsKeypair :=
  if kp.closed then return kp
  else do
    let _ ← call (.zeroize kp.sk blsSeckeySize)
    return { kp with sk := List.replicate blsSeckeySize 0, sk_size := List.length_replicate, closed := true }

/-- `_secret_bytes`. -/
def secretBytes (kp : BlsKeypair) : Except (PyExc ε) Bytes :=
  if kp.closed then .error (.valueError "bls keypair is closed (its secret was wiped)") else .ok kp.sk

end BlsKeypair

/-- `PartialSig`: any integer and any bytes. -/
structure PartialSig where
  index : Int
  signature : Bytes
deriving Repr, DecidableEq

/-! ## The packers -/

/-- `bls_aggregate`. -/
def blsAggregate (signatures : List Bytes) : Prog ε Bytes := do
  requireTrust
  if signatures.isEmpty then throw (.valueError "bls_aggregate needs at least one signature")
  else do
    let blob ← raise (gather blsSignatureSize "signature" signatures)
    checkedCall (.blsAggregate blob signatures.length) fun ret => buffer blsSignatureSize ret.data

/-- `bls_verify_aggregate`. -/
def blsVerifyAggregate (aggregateSignature : Bytes) (publicKeys : List Bytes) (message : Bytes) : Prog ε Bool := do
  requireTrust
  raise (expect (.ok aggregateSignature) blsSignatureSize "aggregate_signature")
  if publicKeys.isEmpty then throw (.valueError "bls_verify_aggregate needs at least one public key")
  else do
    let blob ← raise (gather TrustStore.blsPubkeySize "public_key" publicKeys)
    let ret ← call (.blsVerifyAggregate aggregateSignature blob publicKeys.length message message.length)
    return ret.rc == 0

/-- `finish_checkpoint`; `epoch` and `log_size` are converted with the call. -/
def finishCheckpoint (epoch : Arg ε Nat) (merkleRoot : Bytes) (logSize : Arg ε Nat) (partials : List PartialSig)
    (anchorBlsPubkeys : List Bytes) : Prog ε Bytes := do
  requireTrust
  raise (expect (.ok merkleRoot) AnchorNode.rootSize "merkle_root")
  if partials.isEmpty then throw (.valueError "finish_checkpoint needs at least one partial signature")
  else do
    let indices ← raise (bytesOf (partials.map (·.index)))
    let sigs ← raise (gather blsSignatureSize "partial signature" (partials.map (·.signature)))
    let pks ← raise (gather TrustStore.blsPubkeySize "anchor bls pubkey" anchorBlsPubkeys)
    let epoch ← arg epoch
    let logSize ← arg logSize
    checkedCall (.anchorFinishCheckpoint epoch merkleRoot logSize indices sigs partials.length pks
      anchorBlsPubkeys.length encodeCap) written

/-- `genesis_checkpoint`. -/
def genesisCheckpoint (founders : List BlsKeypair) (threshold : Arg ε Nat) : Prog ε Bytes := do
  requireTrust
  if founders.isEmpty then throw (.valueError "the genesis ceremony needs at least one founder")
  else do
    let n := founders.length
    let secrets ← raise (founders.mapM BlsKeypair.secretBytes)
    let pubkeys := (founders.map (·.pk)).flatten
    let indices ← raise (bytesOf ((List.range n).map fun i : Nat => ((i + 1 : Nat) : Int)))
    let threshold ← arg threshold
    checkedCall (.genesisCheckpointCreate secrets.flatten pubkeys indices n threshold encodeCap) written

/-! ## Specifications of the helpers -/

section

variable {β : Type} {P : Call → Prop} {w : World Call Ret Bool}

theorem requireTrust_cases (w : World Call Ret Bool) :
    (w.objs = true ∧ (requireTrust : Prog ε Unit) w = .ok () w) ∨
    (w.objs = false ∧ ∃ e, (requireTrust : Prog ε Unit) w = .error e w) := by
  unfold requireTrust
  rw [get_bind]
  cases w.objs with
  | true => exact .inl ⟨rfl, rfl⟩
  | false => exact .inr ⟨rfl, _, rfl⟩

theorem oneCall_requireTrust {f : Unit → Prog ε β} (h : OneCall P (f ()) w) : OneCall P (requireTrust >>= f) w := by
  rcases requireTrust_cases (ε := ε) w with ⟨-, hw⟩ | ⟨-, e, hw⟩
  · exact OneCall.bind_of_ok hw h
  · exact OneCall.bind_of_error hw

theorem oneCall_ite {c : Prop} [Decidable c] {e : PyExc ε} {x : Prog ε β} (h : ¬ c → OneCall P x w) :
    OneCall P (if c then throw e else x) w := by
  by_cases hc : c
  · rw [if_pos hc]; exact OneCall.throw e
  · rw [if_neg hc]; exact h hc

end

theorem expect_iff {buf : Bytes} {size : Nat} {name : String} :
    expect (ε := ε) (.ok buf) size name = .ok () ↔ buf.length = size := by
  unfold expect
  change (if buf.length ≠ size then _ else _) = _ ↔ _
  by_cases h : buf.length = size
  · rw [if_neg (not_not.2 h)]
    exact iff_of_true rfl h
  · rw [if_pos h]
    exact iff_of_false (fun he => by cases he) h

theorem expect_isOk {buf : Bytes} {size : Nat} {name : String} :
    (∃ u, expect (ε := ε) (.ok buf) size name = .ok u) ↔ buf.length = size :=
  ⟨fun ⟨_, h⟩ => expect_iff.1 h, fun h => ⟨(), expect_iff.2 h⟩⟩

/-- A gathered buffer is the items one after the other, all of the expected length. -/
theorem gather_iff {size : Nat} {name : String} {items : List Bytes} {blob : Bytes} :
    gather (ε := ε) size name items = .ok blob ↔ (∀ x ∈ items, x.length = size) ∧ blob = items.flatten := by
  -- the accumulator is the buffer so far
  suffices ∀ acc, items.foldlM (fun blob item => do
      expect (ε := ε) (.ok item) size name
      return blob ++ item) acc = .ok blob ↔ (∀ x ∈ items, x.length = size) ∧ blob = acc ++ items.flatten from this []
  induction items with
  | nil =>
    intro acc
    rw [List.flatten_nil, List.append_nil, and_iff_right (List.forall_mem_nil _)]
    exact ⟨fun h => (Except.ok.inj h).symm, fun h => h ▸ rfl⟩
  | cons item items ih =>
    intro acc
    rw [List.foldlM_cons, List.forall_mem_cons, List.flatten_cons, ← List.append_assoc, and_assoc, ← ih]
    cases he : expect (ε := ε) (.ok item) size name with
    | error e =>
      refine iff_of_false (fun h => by cases h) fun h => ?_
      rw [expect_iff.2 h.1] at he
      cases he
    | ok u => exact (and_iff_right (expect_iff.1 he)).symm

theorem gather_isOk {size : Nat} {name : String} {items : List Bytes} :
    (∃ blob, gather (ε := ε) size name items = .ok blob) ↔ ∀ x ∈ items, x.length = size :=
  ⟨fun ⟨_, h⟩ => (gather_iff.1 h).1, fun h => ⟨_, gather_iff.2 ⟨h, rfl⟩⟩⟩

theorem gather_reads {size : Nat} {name : String} {items : List Bytes} {blob : Bytes}
    (h : gather (ε := ε) size name items = .ok blob) : Reads size items.length blob items := by
  obtain ⟨hall, rfl⟩ := gather_iff.1 h
  exact reads_flatten hall

/-- The bytes of ints are the ints, none of them cut off. -/
theorem bytesOf_ok {ints : List Int} {bs : Bytes} (h : bytesOf (ε := ε) ints = .ok bs) :
    bs = ints.map (fun i => UInt8.ofNat i.toNat) ∧ ∀ i ∈ ints, 0 ≤ i ∧ i < 256 := by
  refine ⟨mapM_ok_map (fun i b hi => ?_) h, fun i hi => ?_⟩
  · split at hi
    · cases hi; rfl
    · cases hi
  · obtain ⟨b, hb⟩ := mapM_ok_mem h i hi
    split at hb
    · assumption
    · cases hb

theorem bytesOf_isOk {ints : List Int} :
    (∃ bs, bytesOf (ε := ε) ints = .ok bs) ↔ ∀ i ∈ ints, 0 ≤ i ∧ i < 256 := by
  refine ⟨fun ⟨_, h⟩ => (bytesOf_ok h).2, fun hall => mapM_isOk.2 fun i hi => ⟨_, if_pos (hall i hi)⟩⟩

theorem bytesOf_reads {ints : List Int} {bs : Bytes} (h : bytesOf (ε := ε) ints = .ok bs) :
    Reads 1 ints.length bs (ints.map fun i => [UInt8.ofNat i.toNat]) := by
  obtain ⟨rfl, -⟩ := bytesOf_ok h
  have hr := reads_single (ints.map fun i => UInt8.ofNat i.toNat)
  rwa [List.length_map, List.map_map] at hr

/-- The secrets of open keypairs. -/
theorem secretBytes_ok {founders : List BlsKeypair} {secrets : List Bytes}
    (h : founders.mapM (BlsKeypair.secretBytes (ε := ε)) = .ok secrets) : secrets = founders.map (·.sk) := by
  refine mapM_ok_map (fun kp secret hk => ?_) h
  unfold BlsKeypair.secretBytes at hk
  split at hk
  · cases hk
  · cases hk; rfl

theorem secretBytes_isOk {founders : List BlsKeypair} :
    (∃ secrets, founders.mapM (BlsKeypair.secretBytes (ε := ε)) = .ok secrets) ↔
      ∀ kp ∈ founders, kp.closed = false := by
  rw [mapM_isOk]
  refine forall₂_congr fun kp _ => ?_
  unfold BlsKeypair.secretBytes
  cases kp.closed with
  | true => exact iff_of_false (fun ⟨_, h⟩ => by cases h) Bool.true_eq_false.mp
  | false => exact iff_of_true ⟨_, rfl⟩ rfl

/-! ## When the library is called -/

/-- The program makes a call. -/
def Reaches {κ σ α : Type} (x : Py ε κ σ α) (w : World κ Ret σ) : Prop := callsOf x w ≠ []

section Reaches

variable {κ σ α β : Type} {w : World κ Ret σ}

theorem reaches_raise {x : Except (PyExc ε) α} {f : α → Py ε κ σ β} :
    Reaches (raise x >>= f) w ↔ ∃ a, x = .ok a ∧ Reaches (f a) w := by
  unfold Reaches
  cases x with
  | ok a =>
    rw [callsOf_bind_ok (raise_ok a w) rfl]
    exact ⟨fun h => ⟨a, rfl, h⟩, fun ⟨b, hb, h⟩ => by cases hb; exact h⟩
  | error e =>
    rw [callsOf_bind_error (raise_error e w) rfl]
    exact iff_of_false (fun h => h rfl) fun ⟨a, ha, _⟩ => by cases ha

theorem reaches_arg {a : Arg ε α} {f : α → Py ε κ σ β} :
    Reaches (arg a >>= f) w ↔ ∃ b, a = .ok b ∧ Reaches (f b) w := by
  unfold arg
  rw [reaches_raise]
  cases a with
  | ok b => exact ⟨fun ⟨c, hc, h⟩ => by cases hc; exact ⟨b, rfl, h⟩, fun ⟨c, hc, h⟩ => by cases hc; exact ⟨b, rfl, h⟩⟩
  | error e => exact iff_of_false (fun ⟨c, hc, _⟩ => by cases hc) fun ⟨c, hc, _⟩ => by cases hc

theorem reaches_ite {c : Prop} [Decidable c] {e : PyExc ε} {x : Py ε κ σ α} :
    Reaches (if c then throw e else x) w ↔ ¬ c ∧ Reaches x w := by
  by_cases hc : c
  · rw [if_pos hc]
    exact iff_of_false (fun h => h (callsOf_error (e := e) rfl)) fun h => h.1 hc
  · rw [if_neg hc]
    exact (and_iff_right hc).symm

theorem reaches_after {c : κ} {x : Py ε κ σ α} (h : after x w = w.called c) : Reaches x w := by
  unfold Reaches
  rw [callsOf_called h]
  exact List.cons_ne_nil _ _

theorem reaches_checkedCall {c : κ} {result : Ret → α} : Reaches (checkedCall c result : Py ε κ σ α) w :=
  reaches_after (after_checkedCall c result w)

theorem reaches_requireTrust {f : Unit → Prog ε α} {w : World Call Ret Bool} :
    Reaches (requireTrust >>= f) w ↔ w.objs = true ∧ Reaches (f ()) w := by
  unfold Reaches
  rcases requireTrust_cases (ε := ε) w with ⟨ht, hw⟩ | ⟨ht, e, hw⟩
  · rw [callsOf_bind_ok hw rfl]
    exact (and_iff_right ht).symm
  · rw [callsOf_bind_error hw rfl, ht]
    exact iff_of_false (fun h => h rfl) fun h => by cases h.1

end Reaches

/-- One call, in `P`, where `R` holds, and none otherwise. -/
def CallsWhen {κ σ α : Type} (P : κ → Prop) (R : Prop) (x : Py ε κ σ α) (w : World κ Ret σ) : Prop :=
  OneCall P x w ∧ (Reaches x w ↔ R)

/-! ## What the library sees -/

section

variable (w : World Call Ret Bool)

theorem blsAggregate_packs (signatures : List Bytes) :
    CallsWhen (fun c => ∃ sigs n, c = .blsAggregate sigs n ∧ Reads 96 n sigs signatures)
      (w.objs = true ∧ signatures ≠ [] ∧ ∀ x ∈ signatures, x.length = 96)
      (blsAggregate signatures : Prog ε Bytes) w := by
  unfold blsAggregate
  constructor
  · refine oneCall_requireTrust (oneCall_ite fun _ => oneCall_raise fun blob hblob => oneCall_checkedCall ?_)
    exact ⟨blob, _, rfl, gather_reads hblob⟩
  · simp only [reaches_requireTrust, reaches_ite, reaches_raise, reaches_checkedCall, and_true, gather_isOk,
      List.isEmpty_iff]
    rfl

theorem blsVerifyAggregate_packs (aggregateSignature : Bytes) (publicKeys : List Bytes) (message : Bytes) :
    CallsWhen (fun c => ∃ pks n, c = .blsVerifyAggregate aggregateSignature pks n message message.length ∧
        aggregateSignature.length = 96 ∧ Reads 48 n pks publicKeys)
      (w.objs = true ∧ aggregateSignature.length = 96 ∧ publicKeys ≠ [] ∧ ∀ x ∈ publicKeys, x.length = 48)
      (blsVerifyAggregate aggregateSignature publicKeys message : Prog ε Bool) w := by
  unfold blsVerifyAggregate
  constructor
  · refine oneCall_requireTrust (oneCall_raise fun _ hsig => oneCall_ite fun _ => oneCall_raise fun blob hblob => ?_)
    exact OneCall.of_after rfl ⟨blob, _, rfl, expect_iff.1 hsig, gather_reads hblob⟩
  · have hcall (blob : Bytes) : Reaches (do
        let ret ← call (.blsVerifyAggregate aggregateSignature blob publicKeys.length message message.length)
        return ret.rc == 0 : Prog ε Bool) w := reaches_after rfl
    simp only [reaches_requireTrust, reaches_ite, reaches_raise, hcall, and_true, exists_and_right, expect_isOk,
      gather_isOk, List.isEmpty_iff]
    rfl

/-- Indices, signatures and keys are parallel columns; an index that does not fit a byte raises. -/
theorem finishCheckpoint_packs (epoch : Arg ε Nat) (merkleRoot : Bytes) (logSize : Arg ε Nat)
    (partials : List PartialSig) (anchorBlsPubkeys : List Bytes) :
    CallsWhen (fun c => ∃ e l indices sigs n pks m,
        c = .anchorFinishCheckpoint e merkleRoot l indices sigs n pks m encodeCap ∧ merkleRoot.length = 32 ∧
        Reads 1 n indices (partials.map fun p => [UInt8.ofNat p.index.toNat]) ∧
        (∀ p ∈ partials, 0 ≤ p.index ∧ p.index < 256) ∧
        Reads 96 n sigs (partials.map (·.signature)) ∧ Reads 48 m pks anchorBlsPubkeys)
      (w.objs = true ∧ merkleRoot.length = 32 ∧ partials ≠ [] ∧ (∀ p ∈ partials, 0 ≤ p.index ∧ p.index < 256) ∧
        (∀ p ∈ partials, p.signature.length = 96) ∧ (∀ x ∈ anchorBlsPubkeys, x.length = 48) ∧ (∃ e, epoch = .ok e) ∧
        ∃ l, logSize = .ok l)
      (finishCheckpoint epoch merkleRoot logSize partials anchorBlsPubkeys) w := by
  unfold finishCheckpoint
  constructor
  · refine oneCall_requireTrust (oneCall_raise fun _ hroot => oneCall_ite fun _ => ?_)
    refine oneCall_raise fun indices hindices => oneCall_raise fun sigs hsigs => oneCall_raise fun pks hpks => ?_
    refine oneCall_arg fun e => oneCall_arg fun l => oneCall_checkedCall ?_
    have hcol := bytesOf_reads hindices
    have hsig := gather_reads hsigs
    rw [List.length_map, List.map_map] at hcol
    rw [List.length_map] at hsig
    refine ⟨e, l, indices, sigs, _, pks, _, rfl, expect_iff.1 hroot, hcol, fun p hp => ?_, hsig, gather_reads hpks⟩
    exact (bytesOf_ok hindices).2 p.index (List.mem_map_of_mem hp)
  · simp only [reaches_requireTrust, reaches_ite, reaches_raise, reaches_arg, reaches_checkedCall, and_true,
      exists_and_right, expect_isOk, bytesOf_isOk, gather_isOk, List.isEmpty_iff, List.forall_mem_map]
    rfl

/-- The indices `1 … n` fit a byte up to the 255th. -/
theorem indices_fit {n : Nat} :
    (∀ i ∈ (List.range n).map fun i : Nat => ((i + 1 : Nat) : Int), 0 ≤ i ∧ i < 256) ↔ n ≤ 255 := by
  rw [List.forall_mem_map]
  constructor
  · intro h
    by_contra hbig
    have hlast := h (n - 1) (by rw [List.mem_range]; omega)
    omega
  · intro h i hi
    rw [List.mem_range] at hi
    omega

/-- The founders' secrets, keys and indices `1 … n` are parallel columns; the 256th founder raises. -/
theorem genesisCheckpoint_packs (founders : List BlsKeypair) (threshold : Arg ε Nat) :
    CallsWhen (fun c => ∃ secrets pubkeys indices n t,
        c = .genesisCheckpointCreate secrets pubkeys indices n t encodeCap ∧
        Reads 32 n secrets (founders.map (·.sk)) ∧ Reads 48 n pubkeys (founders.map (·.pk)) ∧
        Reads 1 n indices ((List.range n).map fun i => [UInt8.ofNat (i + 1)]) ∧ n ≤ 255)
      (w.objs = true ∧ founders ≠ [] ∧ (∀ kp ∈ founders, kp.closed = false) ∧ founders.length ≤ 255 ∧
        ∃ t, threshold = .ok t)
      (genesisCheckpoint founders threshold) w := by
  unfold genesisCheckpoint
  constructor
  · refine oneCall_requireTrust (oneCall_ite fun hne => oneCall_raise fun secrets hsecrets => ?_)
    refine oneCall_raise fun indices hindices => oneCall_arg fun t => oneCall_checkedCall ?_
    have hsk : Reads 32 _ _ (founders.map (·.sk)) := reads_flatten (List.forall_mem_map.2 fun kp _ => kp.sk_size)
    have hpk : Reads 48 _ _ (founders.map (·.pk)) := reads_flatten (List.forall_mem_map.2 fun kp _ => kp.pk_size)
    have hcol := bytesOf_reads hindices
    rw [List.length_map] at hsk hpk
    rw [List.length_map, List.length_range, List.map_map] at hcol
    rw [← secretBytes_ok hsecrets] at hsk
    exact ⟨_, _, indices, _, t, rfl, secretBytes_ok hsecrets ▸ hsk, hpk, hcol, indices_fit.1 (bytesOf_ok hindices).2⟩
  · simp only [reaches_requireTrust, reaches_ite, reaches_raise, reaches_arg, reaches_checkedCall, and_true,
      exists_and_right, secretBytes_isOk, bytesOf_isOk, indices_fit, List.isEmpty_iff]

end

theorem forM_id_ok : ∀ {l : List (Except (PyExc ε) Unit)}, l.forM id = .ok () → ∀ x ∈ l, x = .ok ()
  | [], _ => by simp
  | x :: l, h => by
    change (x >>= fun _ => l.forM id) = _ at h
    cases hx : x with
    | error e => rw [hx] at h; cases h
    | ok u =>
      rw [hx] at h
      intro y hy
      rcases List.mem_cons.1 hy with rfl | hy
      · rfl
      · exact forM_id_ok h y hy

theorem forM_id_isOk : ∀ {l : List (Except (PyExc ε) Unit)}, (∀ x ∈ l, x = .ok ()) → l.forM id = .ok ()
  | [], _ => rfl
  | x :: l, h => by
    change (x >>= fun _ => l.forM id) = _
    rw [h x (List.mem_cons_self ..)]
    exact forM_id_isOk fun y hy => h y (List.mem_cons_of_mem _ hy)

/-- The converted parameters of `load_genesis_anchors`. -/
theorem loadGenesisAnchors_params {pubkeys : List (Arg ε Bytes)} {vals : List Val}
    (h : (TrustStore.loadGenesisAnchors pubkeys).params = .ok vals) :
    ∃ keys : List Bytes, pubkeys = keys.map .ok ∧ (∀ k ∈ keys, k.length = 48) ∧
      vals = [.bytes keys.flatten, .int keys.length] := by
  unfold Method.params TrustStore.loadGenesisAnchors at h
  cases hchecks : (pubkeys.map fun pk => expect pk TrustStore.blsPubkeySize "anchor pubkey").forM id with
  | error e => rw [hchecks] at h; cases h
  | ok u =>
    rw [hchecks] at h
    cases hkeys : pubkeys.mapM id with
    | error e => rw [hkeys] at h; cases h
    | ok keys =>
      rw [hkeys] at h
      cases h
      obtain rfl := mapM_id_ok hkeys
      refine ⟨keys, rfl, fun k hk => ?_, by rw [List.length_map]; rfl⟩
      exact expect_iff.1 (forM_id_ok hchecks _ (List.mem_map_of_mem (List.mem_map_of_mem hk)))

theorem loadGenesisAnchors_isOk {pubkeys : List (Arg ε Bytes)} {keys : List Bytes} (hpk : pubkeys = keys.map .ok)
    (hsize : ∀ k ∈ keys, k.length = 48) : ∃ vals, (TrustStore.loadGenesisAnchors pubkeys).params = .ok vals := by
  subst hpk
  have hchecks : ((keys.map Except.ok).map fun pk => expect (ε := ε) pk TrustStore.blsPubkeySize "anchor pubkey").forM id
      = .ok () := by
    refine forM_id_isOk fun x hx => ?_
    obtain ⟨y, hy, rfl⟩ := List.mem_map.1 hx
    obtain ⟨k, hk, rfl⟩ := List.mem_map.1 hy
    exact expect_iff.2 (hsize k hk)
  obtain ⟨ks, hkeys⟩ : ∃ ks, (keys.map Except.ok : List (Arg ε Bytes)).mapM id = .ok ks :=
    mapM_isOk.2 fun a ha => by
      obtain ⟨k, -, rfl⟩ := List.mem_map.1 ha
      exact ⟨k, rfl⟩
  unfold Method.params TrustStore.loadGenesisAnchors
  rw [hchecks, hkeys]
  exact ⟨_, rfl⟩

/-- `TrustStore.load_genesis_anchors`, whose keys arrive as the conversions of the call. -/
theorem loadGenesisAnchors_packs (store : Wrapper) (pubkeys : List (Arg ε Bytes)) (v : Heap) :
    CallsWhen (fun c => ∃ blob n, ∃ keys : List Bytes,
      c = ⟨.trustStoreLoadGenesisAnchors, store.handle, [.bytes blob, .int (n : Nat)]⟩ ∧
        pubkeys = keys.map .ok ∧ Reads 48 n blob keys)
      (isClosed store v = false ∧ ∃ keys : List Bytes, pubkeys = keys.map .ok ∧ ∀ x ∈ keys, x.length = 48)
      ((TrustStore.loadGenesisAnchors pubkeys).run store) v := by
  constructor
  · refine Method.oneCall _ store v fun vals hvals => ?_
    obtain ⟨keys, hpk, hsize, rfl⟩ := loadGenesisAnchors_params hvals
    exact ⟨_, _, keys, rfl, hpk, reads_flatten hsize⟩
  · have hpasses : (TrustStore.loadGenesisAnchors pubkeys).Passes store v ↔
        isClosed store v = false ∧ ∃ keys : List Bytes, pubkeys = keys.map .ok ∧ ∀ x ∈ keys, x.length = 48 := by
      refine and_congr (forall_prop_of_true rfl) ⟨fun ⟨vals, hvals⟩ => ?_, fun ⟨keys, hpk, hsize⟩ => ?_⟩
      · obtain ⟨keys, hpk, hsize, -⟩ := loadGenesisAnchors_params hvals
        exact ⟨keys, hpk, hsize⟩
      · exact loadGenesisAnchors_isOk hpk hsize
    rw [← hpasses]
    rcases (TrustStore.loadGenesisAnchors pubkeys).run_calls store v with ⟨hn, hc⟩ | ⟨hp, vals, -, hc⟩
    · exact iff_of_false (fun h => h hc) hn
    · refine iff_of_true ?_ hp
      unfold Reaches
      rw [hc]
      exact List.cons_ne_nil _ _

/-- Every packer of the trust layer raises before it calls the library or makes one call, and there the
library reads, by its strides and the counts it is given, exactly the inputs in their order. The call is made
where the layer is loaded, or the store open, and the inputs are of their lengths and numbers. -/
theorem packed (w : World Call Ret Bool) (v : Heap) :
    (∀ signatures, CallsWhen (fun c => ∃ sigs n, c = .blsAggregate sigs n ∧ Reads 96 n sigs signatures)
      (w.objs = true ∧ signatures ≠ [] ∧ ∀ x ∈ signatures, x.length = 96) (blsAggregate signatures : Prog ε Bytes) w) ∧
    (∀ aggregateSignature publicKeys message,
      CallsWhen (fun c => ∃ pks n, c = .blsVerifyAggregate aggregateSignature pks n message message.length ∧
          aggregateSignature.length = 96 ∧ Reads 48 n pks publicKeys)
        (w.objs = true ∧ aggregateSignature.length = 96 ∧ publicKeys ≠ [] ∧ ∀ x ∈ publicKeys, x.length = 48)
        (blsVerifyAggregate aggregateSignature publicKeys message : Prog ε Bool) w) ∧
    (∀ (store : Wrapper) (pubkeys : List (Arg ε Bytes)),
      CallsWhen (fun c => ∃ blob n, ∃ keys : List Bytes,
          c = ⟨.trustStoreLoadGenesisAnchors, store.handle, [.bytes blob, .int (n : Nat)]⟩ ∧
          pubkeys = keys.map .ok ∧ Reads 48 n blob keys)
        (isClosed store v = false ∧ ∃ keys : List Bytes, pubkeys = keys.map .ok ∧ ∀ x ∈ keys, x.length = 48)
        ((TrustStore.loadGenesisAnchors pubkeys).run store) v) ∧
    (∀ (epoch : Arg ε Nat) merkleRoot logSize partials anchorBlsPubkeys,
      CallsWhen (fun c => ∃ e l indices sigs n pks m,
          c = .anchorFinishCheckpoint e merkleRoot l indices sigs n pks m encodeCap ∧ merkleRoot.length = 32 ∧
          Reads 1 n indices (partials.map fun p => [UInt8.ofNat p.index.toNat]) ∧
          (∀ p ∈ partials, 0 ≤ p.index ∧ p.index < 256) ∧
          Reads 96 n sigs (partials.map (·.signature)) ∧ Reads 48 m pks anchorBlsPubkeys)
        (w.objs = true ∧ merkleRoot.length = 32 ∧ partials ≠ [] ∧ (∀ p ∈ partials, 0 ≤ p.index ∧ p.index < 256) ∧
          (∀ p ∈ partials, p.signature.length = 96) ∧ (∀ x ∈ anchorBlsPubkeys, x.length = 48) ∧ (∃ e, epoch = .ok e) ∧
          ∃ l, logSize = .ok l)
        (finishCheckpoint epoch merkleRoot logSize partials anchorBlsPubkeys) w) ∧
    ∀ (founders : List BlsKeypair) (threshold : Arg ε Nat),
      CallsWhen (fun c => ∃ secrets pubkeys indices n t,
          c = .genesisCheckpointCreate secrets pubkeys indices n t encodeCap ∧
          Reads 32 n secrets (founders.map (·.sk)) ∧ Reads 48 n pubkeys (founders.map (·.pk)) ∧
          Reads 1 n indices ((List.range n).map fun i => [UInt8.ofNat (i + 1)]) ∧ n ≤ 255)
        (w.objs = true ∧ founders ≠ [] ∧ (∀ kp ∈ founders, kp.closed = false) ∧ founders.length ≤ 255 ∧
          ∃ t, threshold = .ok t)
        (genesisCheckpoint founders threshold) w :=
  ⟨blsAggregate_packs w, blsVerifyAggregate_packs w, fun store pubkeys => loadGenesisAnchors_packs store pubkeys v,
    finishCheckpoint_packs w, genesisCheckpoint_packs w⟩

/-- A library with the trust layer. -/
def loaded : World Call Ret Bool := ⟨true, fun _ => ⟨0, 0, []⟩, []⟩

def share (index : Int) : PartialSig := ⟨index, List.replicate 96 5⟩

def finishShares (shares : List PartialSig) : Prog Unit Bytes :=
  finishCheckpoint (.ok 3) (List.replicate 32 1) (.ok 9) shares [List.replicate 48 2]

/-- Two shares are packed and sent off; with an index that does not fit a byte nothing is. -/
theorem packed_shares :
    (∃ c ∈ callsOf (finishShares [share 1, share 7]) loaded, ∃ e l indices sigs pks m,
      c.1 = .anchorFinishCheckpoint e (List.replicate 32 1) l indices sigs 2 pks m encodeCap ∧
      Reads 1 2 indices [[1], [7]] ∧ Reads 96 2 sigs [List.replicate 96 5, List.replicate 96 5]) ∧
    callsOf (finishShares [share 1, share 256]) loaded = [] := by
  obtain ⟨-, -, -, hfinish, -⟩ := packed (ε := Unit) loaded ⟨fun _ => {}, fun _ => ⟨0, 0, []⟩, []⟩
  constructor
  · obtain ⟨hone, hiff⟩ := hfinish (.ok 3) (List.replicate 32 1) (.ok 9) [share 1, share 7] [List.replicate 48 2]
    have hreach := hiff.2 ⟨rfl, rfl, List.cons_ne_nil _ _, by decide, by decide, by decide, ⟨3, rfl⟩, 9, rfl⟩
    obtain ⟨c, hc⟩ := List.exists_mem_of_ne_nil _ hreach
    obtain ⟨e, l, indices, sigs, n, pks, m, hcall, -, hindices, -, hsigs, -⟩ := hone.mem hc
    obtain rfl : n = 2 := hsigs.count
    exact ⟨c, hc, e, l, indices, sigs, pks, m, hcall, hindices, hsigs⟩
  · by_contra hreach
    have h := (hfinish (.ok 3) (List.replicate 32 1) (.ok 9) [share 1, share 256] [List.replicate 48 2]).2.1 hreach
    exact absurd (h.2.2.2.1 (share 256) (List.mem_cons_of_mem _ (List.mem_cons_self ..))) (by decide)

end Nwep.Trust
