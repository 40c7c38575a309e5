/-
The exceptions of return codes. The leaf classes are built from a table of codes, each under the class of its
family and, where the code is fatal, under `FatalError` too; a code that the table does not have gives a bare
`NwepError`.

What an `except` clause catches is a matter of the classes; that it is a matter of the numbers is what the table
is checked for: a family has the codes of one hundred, and a fatal code is one above eighty in it.
-/
import Nwep.Boundary
import Nwep.Lib.Journal
import Mathlib.Data.List.Nodup
import Mathlib.Logic.Relation

namespace Nwep.Errors

open Lib

/-! ## The classes -/

inductive Family where
  | config | network | crypto | protocol | identity | app | trust | internal
deriving Repr, DecidableEq

/-- The hundred of the family's codes. -/
def Family.hundred : Family → Int
  | config => 1
  | network => 2
  | crypto => 3
  | protocol => 4
  | identity => 5
  | app => 6
  | trust => 7
  | internal => 8

/-- A row of `_TABLE`. -/
structure Row where
  code : Int
  clsName : String
  name : String
  family : Family
  fatal : Bool
deriving Repr, DecidableEq

def wouldBlock : Int := -803

/-- A table in which a code has one row, and stands for its family and for being fatal. -/
structure Table where
  rows : List Row
  codes : (rows.map Row.code).Nodup
  family : ∀ row ∈ rows, -row.code / 100 = row.family.hundred
  fatal : ∀ row ∈ rows, row.fatal = true ↔ 80 < -row.code % 100
  free : wouldBlock ∉ rows.map Row.code

def table : Table where
  rows := [
    ⟨-101, "ConfigInvalid", "config-invalid", .config, false⟩,
    ⟨-102, "ConfigMissing", "config-missing", .config, false⟩,
    ⟨-201, "NetworkConnect", "network-connect", .network, false⟩,
    ⟨-202, "NetworkTimeout", "network-timeout", .network, false⟩,
    ⟨-203, "NetworkClosed", "network-closed", .network, false⟩,
    ⟨-204, "NetworkQuic", "network-quic", .network, false⟩,
    ⟨-205, "NetworkTls", "network-tls", .network, false⟩,
    ⟨-301, "CryptoKeygen", "crypto-keygen", .crypto, false⟩,
    ⟨-302, "CryptoRand", "crypto-rand", .crypto, false⟩,
    ⟨-303, "CryptoSign", "crypto-sign", .crypto, false⟩,
    ⟨-304, "CryptoVerify", "crypto-verify", .crypto, false⟩,
    ⟨-381, "CryptoFatalCert", "crypto-fatal-cert", .crypto, true⟩,
    ⟨-382, "CryptoFatalNodeidMismatch", "crypto-fatal-nodeid-mismatch", .crypto, true⟩,
    ⟨-383, "CryptoFatalChallenge", "crypto-fatal-challenge", .crypto, true⟩,
    ⟨-384, "CryptoFatalServerSig", "crypto-fatal-server-sig", .crypto, true⟩,
    ⟨-385, "CryptoFatalClientSig", "crypto-fatal-client-sig", .crypto, true⟩,
    ⟨-401, "ProtoInvalidMessage", "proto-invalid-message", .protocol, false⟩,
    ⟨-402, "ProtoInvalidMethod", "proto-invalid-method", .protocol, false⟩,
    ⟨-403, "ProtoInvalidHeader", "proto-invalid-header", .protocol, false⟩,
    ⟨-404, "ProtoConnectRequired", "proto-connect-required", .protocol, false⟩,
    ⟨-405, "ProtoStreamReuse", "proto-stream-reuse", .protocol, false⟩,
    ⟨-406, "ProtoMaxStreams", "proto-max-streams", .protocol, false⟩,
    ⟨-407, "ProtoFlowControl", "proto-flow-control", .protocol, false⟩,
    ⟨-408, "ProtoMessageTooLarge", "proto-message-too-large", .protocol, false⟩,
    ⟨-481, "ProtoFatalVersion", "proto-fatal-version", .protocol, true⟩,
    ⟨-501, "IdentityGenerate", "identity-generate", .identity, false⟩,
    ⟨-502, "IdentityMismatch", "identity-mismatch", .identity, false⟩,
    ⟨-503, "IdentityNotFound", "identity-not-found", .identity, false⟩,
    ⟨-504, "IdentityRevoked", "identity-revoked", .identity, false⟩,
    ⟨-601, "AppNotFound", "app-not-found", .app, false⟩,
    ⟨-602, "AppConflict", "app-conflict", .app, false⟩,
    ⟨-603, "RateLimited", "app-rate-limited", .app, false⟩,
    ⟨-604, "Forbidden", "app-forbidden", .app, false⟩,
    ⟨-701, "TrustInvalidEntry", "trust-invalid-entry", .trust, false⟩,
    ⟨-702, "TrustInvalidAnchor", "trust-invalid-anchor", .trust, false⟩,
    ⟨-703, "TrustStaleCheckpoint", "trust-stale-checkpoint", .trust, false⟩,
    ⟨-704, "TrustThreshold", "trust-threshold", .trust, false⟩,
    ⟨-705, "TrustRevoked", "trust-revoked", .trust, false⟩,
    ⟨-706, "TrustNoCheckpoint", "trust-no-checkpoint", .trust, false⟩,
    ⟨-781, "TrustFatalEquivocation", "trust-fatal-equivocation", .trust, true⟩,
    ⟨-782, "TrustFatalLogCorrupt", "trust-fatal-log-corrupt", .trust, true⟩,
    ⟨-801, "Internal", "internal", .internal, false⟩,
    ⟨-802, "InternalAlloc", "internal-alloc", .internal, false⟩]
  codes := by decide
  family := by decide
  fatal := by decide
  free := by decide

inductive Cls where
  | nwepError
  | fatalError
  | family (f : Family)
  | leaf (row : Row)
  | wouldBlock
deriving Repr, DecidableEq

/-- The classes that a class statement, or the loop over the table, names as its bases. -/
def Cls.bases : Cls → List Cls
  | nwepError => []
  | fatalError | family _ | wouldBlock => [nwepError]
  | leaf row => if row.fatal then [family row.family, fatalError] else [family row.family]

/-- `issubclass(c, d)`. -/
abbrev Subclass : Cls → Cls → Prop := Relation.ReflTransGen fun c d => d ∈ c.bases

/-- The class attributes `code`, `name` and `fatal`, of `NwepError` where a class has none of its own. -/
def Cls.attributes : Cls → Int × String × Bool
  | leaf row => (row.code, row.name, row.fatal)
  | wouldBlock => (Errors.wouldBlock, "would-block", false)
  | nwepError | fatalError | family _ => (0, "ok", false)

/-! ## The exceptions -/

structure Exn where
  cls : Cls
  code : Int
  name : String
  fatal : Bool
  message : String
deriving Repr, DecidableEq

/-- `except cls`. -/
def Exn.CaughtBy (e : Exn) (cls : Cls) : Prop := Subclass e.cls cls

-- the library's text of a code, decoded, or none for `NULL`
variable (text : Int → Option String)

def strerror (code : Int) : String := (text code).getD ("unknown error (" ++ toString code ++ ")")

/-- `cls(message)`; an empty message counts as none. -/
def Cls.make (cls : Cls) (message : Option String) : Exn :=
  let (code, name, fatal) := cls.attributes
  let given := message.getD ""
  ⟨cls, code, name, fatal, if given = "" then strerror text code else given⟩

variable (t : Table)

/-- The assignments to `_BY_CODE`, in their order: those of the loop, then that of `WouldBlock`. -/
def assignments : List (Change Int Cls) :=
  (t.rows.map fun row => ⟨row.code, some (.leaf row)⟩) ++ [⟨wouldBlock, some .wouldBlock⟩]

def byCode : Int → Option Cls := replay (assignments t)

def fromCode (code : Int) : Exn :=
  match byCode t code with
  | none =>
    { Cls.make text .nwepError (some (strerror text code)) with code := code, name := "unknown-" ++ toString code }
  | some cls => cls.make text none

/-- The table has the code. -/
def Table.Lists (code : Int) : Prop := code ∈ t.rows.map Row.code

/-! ## What a class is under -/

section Subclass

variable {row : Row} {cls : Cls}

theorem subclass_step {c d : Cls} : Subclass c d ↔ d = c ∨ ∃ b ∈ c.bases, Subclass b d :=
  Relation.ReflTransGen.cases_head_iff.trans (or_congr eq_comm Iff.rfl)

theorem subclass_nwepError : Subclass .nwepError cls ↔ cls = .nwepError := by
  rw [subclass_step]
  simp [Cls.bases]

theorem subclass_wouldBlock : Subclass .wouldBlock cls ↔ cls = .wouldBlock ∨ cls = .nwepError := by
  rw [subclass_step]
  simp [Cls.bases, subclass_nwepError]

theorem subclass_family {f : Family} : Subclass (.family f) cls ↔ cls = .family f ∨ cls = .nwepError := by
  rw [subclass_step]
  simp [Cls.bases, subclass_nwepError]

theorem subclass_fatalError : Subclass .fatalError cls ↔ cls = .fatalError ∨ cls = .nwepError := by
  rw [subclass_step]
  simp [Cls.bases, subclass_nwepError]

/-- A fatal leaf is under both its family and the marker. -/
theorem subclass_leaf : Subclass (.leaf row) cls ↔
    cls = .leaf row ∨ cls = .family row.family ∨ (row.fatal = true ∧ cls = .fatalError) ∨ cls = .nwepError := by
  rw [subclass_step]
  unfold Cls.bases
  by_cases hf : row.fatal = true
  · simp only [if_pos hf, List.mem_cons, List.not_mem_nil, or_false, exists_eq_or_imp, exists_eq_left, subclass_family,
      subclass_fatalError]
    tauto
  · simp only [if_neg hf, List.mem_cons, List.not_mem_nil, or_false, exists_eq_left, subclass_family]
    tauto

end Subclass

/-! ## The classes by code -/

section ByCode

variable {text : Int → Option String} {t : Table} {row : Row} {cls : Cls} {code : Int}

theorem holds_rows : Holds (t.rows.map fun row => ⟨row.code, some (Cls.leaf row)⟩) code cls ↔
    ∃ row ∈ t.rows, row.code = code ∧ cls = .leaf row := by
  constructor
  · rintro ⟨xs, ys, h, -⟩
    have hmem : (⟨code, some cls⟩ : Change Int Cls) ∈ t.rows.map fun row => ⟨row.code, some (Cls.leaf row)⟩ := by
      rw [h]; simp
    obtain ⟨row, hrow, he⟩ := List.mem_map.1 hmem
    cases he
    exact ⟨row, hrow, rfl, rfl⟩
  · rintro ⟨row, hrow, rfl, rfl⟩
    refine holds_of_mem (List.mem_map.2 ⟨row, hrow, rfl⟩) fun c hc hk => ?_
    obtain ⟨other, hother, rfl⟩ := List.mem_map.1 hc
    -- the code has no other row
    rw [List.inj_on_of_nodup_map t.codes hother hrow hk]

theorem byCode_wouldBlock : byCode t wouldBlock = some .wouldBlock := by
  unfold byCode assignments
  rw [replay_concat]
  exact Change.apply_self ⟨wouldBlock, some Cls.wouldBlock⟩ _

theorem byCode_leaf (h : row ∈ t.rows) : byCode t row.code = some (.leaf row) := by
  have hne : row.code ≠ wouldBlock := fun he => t.free (he ▸ List.mem_map_of_mem h)
  unfold byCode assignments
  rw [replay_concat, Change.apply_other _ hne, replay_eq_some, holds_rows]
  exact ⟨row, h, rfl, rfl⟩

theorem byCode_none (h : ¬ t.Lists code) (hw : code ≠ wouldBlock) : byCode t code = none := by
  unfold byCode assignments
  rw [replay_concat, Change.apply_other _ hw, replay_eq_none]
  intro cls hcls
  obtain ⟨row, hrow, rfl, -⟩ := holds_rows.1 hcls
  exact h (List.mem_map_of_mem hrow)

variable (text t) in
/-- What a code is made into. -/
inductive Made (code : Int) : Exn → Prop
  | leaf {row : Row} : row ∈ t.rows → row.code = code →
      Made code ⟨.leaf row, code, row.name, row.fatal, strerror text code⟩
  | wouldBlock : code = wouldBlock → Made code ⟨.wouldBlock, code, "would-block", false, strerror text code⟩
  | bare : ¬ t.Lists code → code ≠ Errors.wouldBlock →
      Made code ⟨.nwepError, code, "unknown-" ++ toString code, false,
        if strerror text code = "" then strerror text 0 else strerror text code⟩

theorem fromCode_made (code : Int) : Made text t code (fromCode text t code) := by
  unfold fromCode
  by_cases hw : code = wouldBlock
  · subst hw
    rw [byCode_wouldBlock]
    exact .wouldBlock rfl
  by_cases hl : t.Lists code
  · obtain ⟨row, hrow, rfl⟩ := List.mem_map.1 hl
    rw [byCode_leaf hrow]
    exact .leaf hrow rfl
  · rw [byCode_none hl hw]
    exact .bare hl hw

/-- The codes that an `except` clause stands for. -/
def Table.Covers (t : Table) : Cls → Int → Prop
  | .nwepError, _ => True
  | .fatalError, code => t.Lists code ∧ 80 < -code % 100
  | .family f, code => t.Lists code ∧ -code / 100 = f.hundred
  | .leaf row, code => row ∈ t.rows ∧ code = row.code
  | .wouldBlock, code => code = Errors.wouldBlock

/-- A clause catches the exceptions of the codes it stands for. -/
theorem caught_iff_covers : (fromCode text t code).CaughtBy cls ↔ t.Covers cls code := by
  unfold Exn.CaughtBy
  have hmade : Made text t code (fromCode text t code) := fromCode_made code
  generalize fromCode text t code = e at hmade ⊢
  cases hmade with
  | @leaf row hrow hcode =>
    subst hcode
    have hlists : t.Lists row.code := List.mem_map_of_mem hrow
    rw [subclass_leaf]
    cases cls with
    | nwepError => simp [Table.Covers]
    | fatalError => simp [Table.Covers, hlists, t.fatal row hrow]
    | family f =>
      simp only [Table.Covers, hlists, true_and, t.family row hrow, Cls.family.injEq, reduceCtorEq, false_or, and_false,
        or_false]
      cases f <;> cases row.family <;> decide
    | wouldBlock =>
      have hne : row.code ≠ wouldBlock := fun he => t.free (he ▸ hlists)
      simp [Table.Covers, hne]
    | leaf other =>
      simp only [Table.Covers, Cls.leaf.injEq, reduceCtorEq, and_false, or_false]
      constructor
      · rintro rfl
        exact ⟨hrow, rfl⟩
      · rintro ⟨hother, he⟩
        exact List.inj_on_of_nodup_map t.codes hother hrow he.symm
  | wouldBlock hw =>
    subst hw
    have hfree : ¬ t.Lists wouldBlock := t.free
    rw [subclass_wouldBlock]
    cases cls with
    | leaf other =>
      have hne : other ∈ t.rows → wouldBlock ≠ other.code := fun h he => hfree (he ▸ List.mem_map_of_mem h)
      simpa [Table.Covers] using hne
    | _ => simp [Table.Covers, hfree]
  | bare hl hw =>
    rw [subclass_nwepError]
    cases cls with
    | leaf other =>
      have hne : other ∈ t.rows → code ≠ other.code := fun h he => hl (he ▸ List.mem_map_of_mem h)
      simpa [Table.Covers] using hne
    | _ => simp [Table.Covers, hl, hw]

theorem fromCode_code (code : Int) : (fromCode text t code).code = code := by
  have hmade : Made text t code (fromCode text t code) := fromCode_made code
  generalize fromCode text t code = e at hmade ⊢
  cases hmade <;> rfl

/-- `fatal` tells what `except FatalError` tells. -/
theorem fromCode_fatal (code : Int) : (fromCode text t code).fatal = true ↔ t.Covers .fatalError code := by
  have hmade : Made text t code (fromCode text t code) := fromCode_made code
  generalize fromCode text t code = e at hmade ⊢
  unfold Table.Covers
  cases hmade with
  | @leaf row hrow hcode =>
    subst hcode
    have hlists : t.Lists row.code := List.mem_map_of_mem hrow
    simp [hlists, t.fatal row hrow]
  | wouldBlock hw =>
    subst hw
    have hfree : ¬ t.Lists wouldBlock := t.free
    simp [hfree]
  | bare hl _ => simp [hl]

theorem fromCode_message (h : strerror text code ≠ "") : (fromCode text t code).message = strerror text code := by
  have hmade : Made text t code (fromCode text t code) := fromCode_made code
  generalize fromCode text t code = e at hmade ⊢
  cases hmade with
  | leaf | wouldBlock => rfl
  | bare => exact if_neg h

end ByCode

/-! ## The exceptions of the wrappers -/

section Wrappers

variable {ε : Type}

/-- The exception that a `PyExc` stands for, if it is one of these; one raised by its class has its own message. -/
def exn (text : Int → Option String) (t : Table) : PyExc ε → Option Exn
  | .nwep code => some (fromCode text t code)
  | .configInvalid message =>
    some ((Cls.leaf ⟨-101, "ConfigInvalid", "config-invalid", .config, false⟩).make text (some message))
  | .internalError message => some ((Cls.family .internal).make text (some message))
  | _ => none

end Wrappers

end Nwep.Errors
