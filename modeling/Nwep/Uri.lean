/-
`web://` URIs: `Uri.parse`, which leaves the parsing to the library and reads the parts it wrote, and `str`, which
puts them together again. The library's parser is a parameter, taken at its word: it accepts
`web://nodeid[:port]/path`, fills in the default port where there is none, and gives the path as a slice of its
input.

The path is read up to its first NUL, and a port of 0 has no text. Every other URI is what its own text is parsed
into.
-/
import Nwep.Lib.Base58
import Nwep.Exchange
import Nwep.Identity

namespace Nwep

open Lib Text Exchange
open CString (upTo)

structure Uri where
  nodeId : NodeId
  port : Nat
  path : Str
deriving DecidableEq

namespace Uri

/-- `DEFAULT_PORT`. -/
def defaultPort : Nat := 6937

/-- `nwep_uri`: the path is a slice of the input, or `NULL`. -/
structure Parts where
  nodeId : NodeId
  port : Nat
  path : Option Bytes

/-- What the library does of it: the text of a node id, and the parser with the code it returns. -/
structure Library where
  base58 : NodeId → List Char
  parse : Bytes → Int × Parts

variable {ε : Type}

section

variable (lib : Library) (unicodeError : ε)

/-- `Uri.parse`; `ffi.string` reads the slice up to its first NUL. -/
def parse (text : Str) : Except (PyExc ε) Uri := do
  let raw ← (encode unicodeError text).mapError .raised
  let _ ← checkCode (lib.parse raw).1
  let out := (lib.parse raw).2
  let nodeId ← NodeId.init out.nodeId.bytes
  let path ← match out.path with
    | some slice => (decodeUtf8 unicodeError (CString.read slice)).mapError .raised
    | none => .ok []
  return ⟨nodeId, out.port, path⟩

/-- `Uri.__str__`. -/
def str (u : Uri) : Str :=
  let host := lib.base58 u.nodeId
  let authority := if u.port ≠ 0 then host ++ ':' :: (toString u.port).toList else host
  ofChars ("web://".toList ++ authority) ++ u.path

end

/-! ## The library's parser -/

/-- `web://nodeid[:port]/path`, as the parser reads it. -/
structure Documented (lib : Library) : Prop where
  named : ∀ id port path, 0 < port → port < 65536 → path.head? = some '/' → '\x00' ∉ path →
    lib.parse (CString.encode ("web://".toList ++ (lib.base58 id ++ ':' :: (toString port).toList) ++ path)) =
      (0, ⟨id, port, some (CString.encode path)⟩)
  bare : ∀ id path, path.head? = some '/' → '\x00' ∉ path →
    lib.parse (CString.encode ("web://".toList ++ lib.base58 id ++ path)) =
      (0, ⟨id, defaultPort, some (CString.encode path)⟩)
  port_lt : ∀ raw, (lib.parse raw).2.port < 65536
  slice : ∀ raw path, 0 ≤ (lib.parse raw).1 → (lib.parse raw).2.path = some path →
    (∃ front, raw = front ++ path) ∧ (path = [] ∨ path.head? = some 47)

/-! ## Texts -/

section Texts

variable {unicodeError : ε} {text : Str} {chars : List Char}

theorem surrogate_not_mem (chars : List Char) (n : Fin 2048) : .surrogate n ∉ ofChars chars := by
  intro h
  obtain ⟨c, -, hc⟩ := List.mem_map.1 h
  cases hc

theorem nul_mem_ofChars : nul ∈ ofChars chars ↔ '\x00' ∈ chars := by
  unfold nul ofChars
  exact List.mem_map_of_injective scalar_injective

/-- Text without lone surrogates. -/
theorem exists_chars (h : ∀ n, .surrogate n ∉ text) : ∃ chars, text = ofChars chars := by
  cases he : encode () text with
  | ok raw =>
    obtain ⟨chars, htext, -⟩ := encode_ok he
    exact ⟨chars, htext⟩
  | error e =>
    obtain ⟨n, hn⟩ := encode_error_iff.1 ⟨e, he⟩
    exact absurd hn (h n)

/-- Only the text of a slash has its byte. -/
theorem head_slash {bytes : Bytes} (h : CString.encode chars = 47 :: bytes) : chars.head? = some '/' := by
  cases chars with
  | nil => cases h
  | cons c chars =>
    have hcons : String.utf8EncodeChar c ++ CString.encode chars = 47 :: bytes := h
    cases hc : String.utf8EncodeChar c with
    | nil => exact absurd hc (by fun_cases String.utf8EncodeChar c <;> simp)
    | cons b l =>
      rw [hc] at hcons
      cases hcons
      have hval := (CString.utf8EncodeChar_ascii hc (by decide)).1
      have hslash : c = '/' := Char.ext (UInt32.toNat_inj.1 hval)
      rw [hslash]; rfl

theorem head_ofChars (h : (ofChars chars).head? = some (.scalar '/')) : chars.head? = some '/' := by
  cases chars with
  | nil => cases h
  | cons c chars => cases h; rfl

theorem head_encode (h : chars.head? = some '/') : (CString.encode chars).head? = some 47 := by
  cases chars with
  | nil => cases h
  | cons c chars => cases h; rfl

end Texts

/-! ## A parser that does so -/

section Reference

/-- `web://nodeid` and what follows it. -/
def front (id : NodeId) (port : List Char) : List Char := "web://".toList ++ (Base58.encode id.bytes ++ port)

/-- What a text has between the scheme and its path. -/
def authority (text : List Char) : List Char := upTo '/' (text.drop 6)

def host (text : List Char) : List Char := upTo ':' (authority text)

/-- The path, from its slash on. -/
def readPath (text : List Char) : List Char := (text.drop 6).drop (authority text).length

def readId (text : List Char) : NodeId := NodeId.ofBuffer (Base58.decode nodeidSize (host text))

def readPort (text : List Char) : Nat :=
  Nat.ofDigitChars 10 (((authority text).drop (host text).length).drop 1) 0

/-- A library that puts the parts together again to see whether they are those of its input. -/
def reference : Library where
  base58 id := Base58.encode id.bytes
  parse raw :=
    let text := (CString.decode raw).getD []
    let id := readId text
    let port := readPort text
    let path := readPath text
    if path.head? ≠ some '/' then (-401, ⟨id, 0, none⟩)
    else if 0 < port ∧ port < 65536 ∧ raw = CString.encode (front id (':' :: (toString port).toList) ++ path) then
      (0, ⟨id, port, some (CString.encode path)⟩)
    else if raw = CString.encode (front id [] ++ path) then (0, ⟨id, defaultPort, some (CString.encode path)⟩)
    else (-401, ⟨id, 0, none⟩)

variable {n : Nat} {port path : List Char}

theorem upTo_head {c : Char} {l : List Char} (h : l.head? = some c) : upTo c l = [] := by
  cases l with
  | nil => rfl
  | cons a l => cases h; exact CString.upTo_cons_self _ l

theorem ofBuffer_bytes (id : NodeId) : NodeId.ofBuffer id.bytes = id := by
  unfold NodeId.ofBuffer buffer
  simp only [← id.size, List.take_left']

theorem separator_not_mem {c : Char} (h : c ∉ Base58.alphabet) (id : NodeId) : c ∉ Base58.encode id.bytes :=
  fun hc => h (Base58.mem_encode hc)

theorem digit_ne_slash {c : Char} (h : c ∈ (toString n).toList) : c ≠ '/' := by
  rintro rfl
  rw [Nat.toString_eq_repr, Nat.toList_repr] at h
  have hdigit : '/'.isDigit = true := Nat.isDigit_of_mem_toDigits (by decide) (by decide) h
  exact absurd hdigit (by decide)

/-- The parts of a text that has them. -/
theorem parts_front (id : NodeId) (hpath : path.head? = some '/') (hslash : '/' ∉ port)
    (hport : port = [] ∨ port.head? = some ':') :
    readId (front id port ++ path) = id ∧ readPort (front id port ++ path) = Nat.ofDigitChars 10 (port.drop 1) 0 ∧
      readPath (front id port ++ path) = path := by
  have hdrop : (front id port ++ path).drop 6 = Base58.encode id.bytes ++ port ++ path := by
    unfold front
    rw [List.append_assoc]; rfl
  have hauthority : authority (front id port ++ path) = Base58.encode id.bytes ++ port := by
    have hfree : '/' ∉ Base58.encode id.bytes ++ port := fun h =>
      (List.mem_append.1 h).elim (separator_not_mem (by decide) id) hslash
    unfold authority
    rw [hdrop, CString.upTo_append hfree, upTo_head hpath, List.append_nil]
  have hhost : host (front id port ++ path) = Base58.encode id.bytes := by
    have hend : upTo ':' port = [] := by
      rcases hport with rfl | h
      · rfl
      · exact upTo_head h
    unfold host
    rw [hauthority, CString.upTo_append (separator_not_mem (by decide) id), hend, List.append_nil]
  have hid : Base58.decode nodeidSize (Base58.encode id.bytes) = id.bytes := by
    have h := Base58.decode_encode id.bytes
    rwa [id.size] at h
  refine ⟨?_, ?_, ?_⟩
  · unfold readId
    rw [hhost, hid, ofBuffer_bytes]
  · unfold readPort
    rw [hauthority, hhost, List.drop_left]
  · unfold readPath
    rw [hdrop, hauthority, List.drop_left]

theorem ofDigitChars_toString (n : Nat) : Nat.ofDigitChars 10 (toString n).toList 0 = n := by
  rw [Nat.toString_eq_repr, Nat.toList_repr, Nat.ofDigitChars_ten_toDigits]

/-- What the library does with its input: it refuses it, or the input ends in the path. -/
theorem reference_cases (raw : Bytes) :
    (∃ id, reference.parse raw = (-401, ⟨id, 0, none⟩)) ∨
    ∃ id port front path, port < 65536 ∧ path.head? = some '/' ∧ raw = CString.encode (front ++ path) ∧
      reference.parse raw = (0, ⟨id, port, some (CString.encode path)⟩) := by
  unfold reference
  simp only
  split
  · exact .inl ⟨_, rfl⟩
  · rename_i hhead
    split
    · rename_i h
      exact .inr ⟨_, _, _, _, h.2.1, not_not.1 hhead, h.2.2, rfl⟩
    · split
      · rename_i h
        exact .inr ⟨_, _, _, _, by decide, not_not.1 hhead, h, rfl⟩
      · exact .inl ⟨_, rfl⟩

theorem reference_documented : Documented reference where
  named id n path hpos hlt hpath _ := by
    have hslash : '/' ∉ ':' :: (toString n).toList := fun h =>
      (List.mem_cons.1 h).elim (by decide) fun h => digit_ne_slash h rfl
    obtain ⟨hid, hport, hpath'⟩ := parts_front id hpath hslash (.inr rfl)
    rw [List.drop_one, List.tail_cons, ofDigitChars_toString] at hport
    show reference.parse (CString.encode (front id (':' :: (toString n).toList) ++ path)) = _
    unfold reference
    simp only [CString.decode_encode, Option.getD_some, hid, hport, hpath', hpath, hpos, hlt, ne_eq,
      not_true_eq_false, if_false, and_self, if_true]
  bare id path hpath _ := by
    obtain ⟨hid, hport, hpath'⟩ := parts_front id hpath List.not_mem_nil (.inl rfl)
    have hnone : readPort (front id [] ++ path) = 0 := hport
    have htext : "web://".toList ++ reference.base58 id ++ path = front id [] ++ path := by
      unfold front
      rw [List.append_nil]; rfl
    rw [htext]
    unfold reference
    simp only [CString.decode_encode, Option.getD_some, hid, hnone, hpath', hpath, ne_eq, not_true_eq_false,
      if_false, Nat.lt_irrefl, false_and, if_true]
  port_lt raw := by
    obtain ⟨id, h⟩ | ⟨id, port, front, path, hport, -, -, h⟩ := reference_cases raw <;> rw [h]
    · exact Nat.zero_lt_succ _
    · exact hport
  slice raw path _ hpath := by
    obtain ⟨id, h⟩ | ⟨id, port, front, path, -, hhead, rfl, h⟩ := reference_cases raw <;> rw [h] at hpath
    · cases hpath
    · cases hpath
      exact ⟨⟨CString.encode front, CString.encode_append ..⟩, .inr (head_encode hhead)⟩

end Reference

/-! ## Parsing -/

section Parse

variable {lib : Library} {unicodeError : ε} {text : Str} {raw : Bytes} {chars : List Char}

theorem init_bytes (id : NodeId) : (NodeId.init id.bytes : Except (PyExc ε) NodeId) = .ok id := dif_pos id.size

theorem parse_unencoded {e : ε} (h : encode unicodeError text = .error e) :
    parse lib unicodeError text = .error (.raised e) := by
  unfold parse
  rw [h]; rfl

theorem parse_refused (h : encode unicodeError text = .ok raw) (hrc : (lib.parse raw).1 < 0) :
    parse lib unicodeError text = .error (.nwep (lib.parse raw).1) := by
  have hcheck : (checkCode (lib.parse raw).1 : Except (PyExc ε) Int) = .error (.nwep (lib.parse raw).1) := if_pos hrc
  unfold parse
  rw [h]
  show (do let _ ← checkCode (lib.parse raw).1; _ : Except (PyExc ε) Uri) = _
  rw [hcheck]; rfl

/-- What the library accepts has its path read. -/
theorem parse_returned (h : encode unicodeError text = .ok raw) (hrc : 0 ≤ (lib.parse raw).1) :
    parse lib unicodeError text =
      (match (lib.parse raw).2.path with
        | some slice => (decodeUtf8 unicodeError (CString.read slice)).mapError .raised
        | none => .ok [] : Except (PyExc ε) Str).map (Uri.mk (lib.parse raw).2.nodeId (lib.parse raw).2.port) := by
  have hcheck : (checkCode (lib.parse raw).1 : Except (PyExc ε) Int) = .ok (lib.parse raw).1 := if_neg (by omega)
  unfold parse
  rw [h]
  show (do let _ ← checkCode (lib.parse raw).1; _ : Except (PyExc ε) Uri) = _
  rw [hcheck]
  show (do let nodeId ← NodeId.init (lib.parse raw).2.nodeId.bytes; _ : Except (PyExc ε) Uri) = _
  rw [init_bytes]
  cases (lib.parse raw).2.path <;> rfl

theorem parse_accepted (h : encode unicodeError text = .ok raw) (hrc : 0 ≤ (lib.parse raw).1)
    (hpath : (lib.parse raw).2.path = some (CString.encode chars)) :
    parse lib unicodeError text =
      .ok ⟨(lib.parse raw).2.nodeId, (lib.parse raw).2.port, ofChars (upTo '\x00' chars)⟩ := by
  rw [parse_returned h hrc, hpath]
  simp only [CString.read_slice, decodeUtf8_encode]
  rfl

theorem parse_pathless (h : encode unicodeError text = .ok raw) (hrc : 0 ≤ (lib.parse raw).1)
    (hpath : (lib.parse raw).2.path = none) :
    parse lib unicodeError text = .ok ⟨(lib.parse raw).2.nodeId, (lib.parse raw).2.port, []⟩ := by
  rw [parse_returned h hrc, hpath]; rfl

/-- The path that the parser gives is text. -/
theorem slice_encoded (hlib : Documented lib) (he : encode unicodeError text = .ok raw) {path : Bytes}
    (hrc : 0 ≤ (lib.parse raw).1) (hpath : (lib.parse raw).2.path = some path) :
    ∃ chars, path = CString.encode chars ∧ (chars = [] ∨ chars.head? = some '/') := by
  obtain ⟨⟨front, hraw⟩, rfl | hhead⟩ := hlib.slice raw path hrc hpath
  · exact ⟨[], rfl, .inl rfl⟩
  · obtain ⟨all, -, hall⟩ := encode_ok he
    cases path with
    | nil => cases hhead
    | cons b path =>
      cases hhead
      obtain ⟨_, chars, -, -, hchars⟩ := CString.encode_split (by decide) (hall.symm.trans hraw)
      exact ⟨chars, hchars, .inr (head_slash hchars.symm)⟩

/-- What becomes of a text: it has a lone surrogate, the library refuses it, or it is a URI. -/
theorem parse_cases (hlib : Documented lib) (unicodeError : ε) (text : Str) :
    (∃ e, encode unicodeError text = .error e ∧ parse lib unicodeError text = .error (.raised e)) ∨
    (∃ raw, encode unicodeError text = .ok raw ∧ (lib.parse raw).1 < 0 ∧
      parse lib unicodeError text = .error (.nwep (lib.parse raw).1)) ∨
    ∃ id port chars, port < 65536 ∧ (chars = [] ∨ chars.head? = some '/') ∧
      parse lib unicodeError text = .ok ⟨id, port, ofChars (upTo '\x00' chars)⟩ := by
  cases he : encode unicodeError text with
  | error e => exact .inl ⟨e, rfl, parse_unencoded he⟩
  | ok raw =>
    refine .inr ?_
    by_cases hrc : (lib.parse raw).1 < 0
    · exact .inl ⟨raw, rfl, hrc, parse_refused he hrc⟩
    · have hok : 0 ≤ (lib.parse raw).1 := by omega
      cases hpath : (lib.parse raw).2.path with
      | none => exact .inr ⟨_, _, [], hlib.port_lt raw, .inl rfl, parse_pathless he hok hpath⟩
      | some path =>
        obtain ⟨chars, rfl, hchars⟩ := slice_encoded hlib he hok hpath
        exact .inr ⟨_, _, chars, hlib.port_lt raw, hchars, parse_accepted he hok hpath⟩

/-! ## The round trip -/

variable {u : Uri}

/-- What `web://nodeid[:port]/path` can name. -/
structure Rooted (u : Uri) : Prop where
  port : u.port < 65536
  slash : u.path.head? = some (.scalar '/')

/-- The path was read in full: it is text, without a NUL. -/
def Plain (u : Uri) : Prop := nul ∉ u.path ∧ ∀ n, .surrogate n ∉ u.path

/-- What is accepted is plain, and has a path from its slash on or none. -/
theorem parse_plain (hlib : Documented lib) (h : parse lib unicodeError text = .ok u) :
    Plain u ∧ (u.path = [] ∨ Rooted u) := by
  rcases parse_cases hlib unicodeError text with
    ⟨e, -, he⟩ | ⟨raw, -, -, he⟩ | ⟨id, port, chars, hport, hchars, hu⟩
  · rw [he] at h; cases h
  · rw [he] at h; cases h
  · cases hu.symm.trans h
    refine ⟨⟨fun hn => CString.not_mem_upTo _ _ (nul_mem_ofChars.1 hn), surrogate_not_mem _⟩, ?_⟩
    rcases hchars with rfl | hslash
    · exact .inl rfl
    · refine .inr ⟨hport, ?_⟩
      cases chars with
      | nil => cases hslash
      | cons c chars =>
        cases hslash
        show (ofChars (upTo '\x00' ('/' :: chars))).head? = some (.scalar '/')
        rw [CString.upTo_cons (by decide)]; rfl

/-- What the text of a plain URI is parsed into. -/
theorem parse_str (hlib : Documented lib) (hu : Rooted u) (hplain : Plain u) :
    parse lib unicodeError (str lib u) = .ok { u with port := if u.port = 0 then defaultPort else u.port } := by
  obtain ⟨chars, hpath⟩ := exists_chars hplain.2
  have hslash : chars.head? = some '/' := head_ofChars (hpath ▸ hu.slash)
  have hnul : '\x00' ∉ chars := fun h => hplain.1 (hpath ▸ nul_mem_ofChars.2 h)
  have hall : u.path = ofChars (upTo '\x00' chars) := by rw [CString.upTo_eq_self.2 hnul, hpath]
  have hstr : ∀ front : List Char, ofChars front ++ u.path = ofChars (front ++ chars) := fun front => by
    rw [hpath]; exact List.map_append.symm
  unfold str
  by_cases hzero : u.port = 0
  · have hparse := hlib.bare u.nodeId chars hslash hnul
    simp only [hzero, ne_eq, not_true_eq_false, if_false, if_true]
    rw [hstr, parse_accepted (encode_ofChars _) (by rw [hparse]) (by rw [hparse]), hparse, hall]
  · have hparse := hlib.named u.nodeId u.port chars (Nat.pos_of_ne_zero hzero) hu.port hslash hnul
    simp only [hzero, ne_eq, not_false_eq_true, if_true, if_false]
    rw [hstr, parse_accepted (encode_ofChars _) (by rw [hparse]) (by rw [hparse]), hparse, ← hall]

/-- A URI is what its text is parsed into if and only if it has a port and its path is read in full. -/
theorem parse_str_iff (hlib : Documented lib) (hu : Rooted u) :
    parse lib unicodeError (str lib u) = .ok u ↔ u.port ≠ 0 ∧ Plain u := by
  constructor
  · intro h
    have hplain := (parse_plain hlib h).1
    rw [parse_str hlib hu hplain] at h
    refine ⟨fun hzero => ?_, hplain⟩
    have hport : (if u.port = 0 then defaultPort else u.port) = u.port := congrArg Uri.port (Except.ok.inj h)
    rw [if_pos hzero, hzero] at hport
    exact absurd hport (by decide)
  · rintro ⟨hport, hplain⟩
    rw [parse_str hlib hu hplain, if_neg hport]

/-- On every text and every URI: what is accepted has no path, or a path from its slash on, and then is what its own
text is parsed into unless its port is 0; the text of a URI is parsed into it if and only if it has a port and
no NUL and no lone surrogate in its path; and what is refused raises for a lone surrogate or the library's code. -/
theorem round_trip (hlib : Documented lib) (unicodeError : ε) :
    (∀ text u, parse lib unicodeError text = .ok u →
      u.path = [] ∨ Rooted u ∧ (u.port ≠ 0 → parse lib unicodeError (str lib u) = .ok u)) ∧
    (∀ u, Rooted u → (parse lib unicodeError (str lib u) = .ok u ↔
      u.port ≠ 0 ∧ nul ∉ u.path ∧ ∀ n, .surrogate n ∉ u.path)) ∧
    (∀ text e, parse lib unicodeError text = .error e →
      (∃ e', encode unicodeError text = .error e' ∧ e = .raised e') ∨
      ∃ raw, encode unicodeError text = .ok raw ∧ (lib.parse raw).1 < 0 ∧ e = .nwep (lib.parse raw).1) := by
  refine ⟨fun text u h => ?_, fun u hu => parse_str_iff hlib hu, fun text e h => ?_⟩
  · obtain ⟨hplain, hnone | hu⟩ := parse_plain hlib h
    · exact .inl hnone
    · exact .inr ⟨hu, fun hport => (parse_str_iff hlib hu).2 ⟨hport, hplain⟩⟩
  · rcases parse_cases hlib unicodeError text with ⟨e', he, hp⟩ | ⟨raw, he, hrc, hp⟩ | ⟨id, port, chars, -, -, hp⟩
    · cases hp.symm.trans h; exact .inl ⟨e', he, rfl⟩
    · cases hp.symm.trans h; exact .inr ⟨raw, he, hrc, rfl⟩
    · cases hp.symm.trans h

/-- `web://11111111111111111111111111111111:443/blob/42`. -/
theorem round_trip_blob :
    let u : Uri := ⟨⟨List.replicate nodeidSize 0, List.length_replicate⟩, 443, ofChars "/blob/42".toList⟩
    let truncated : Uri := { u with path := ofChars "/blob\x0042".toList }
    str reference u = ofChars "web://11111111111111111111111111111111:443/blob/42".toList ∧
      parse reference () (str reference u) = .ok u ∧ parse reference () (str reference truncated) ≠ .ok truncated := by
  refine ⟨?_, ?_, ?_⟩
  · decide
  · refine ((round_trip reference_documented ()).2.1 _ ⟨by decide, by decide⟩).2 ⟨by decide, ?_, surrogate_not_mem _⟩
    exact fun h => absurd (nul_mem_ofChars.1 h) (by decide)
  · intro h
    obtain ⟨-, hnul, -⟩ := ((round_trip reference_documented ()).2.1 _ ⟨by decide, by decide⟩).1 h
    exact hnul (nul_mem_ofChars.2 (by decide))

end Parse

end Uri

end Nwep
