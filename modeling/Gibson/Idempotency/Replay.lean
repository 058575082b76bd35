import Mathlib.Logic.Basic

/-! The outcome of a call as the idempotency cache keeps and replays it. -/

namespace Gibson.Idempotency

/-- A part of a Go string: a character, or a byte that is not valid UTF-8. -/
inductive Rune where
  | char (c : Char)
  | bad (b : UInt8)
  deriving DecidableEq

abbrev Text := List Rune

def text (s : String) : Text := s.toList.map .char

/-- What `encoding/json` writes: a byte that is not valid UTF-8 becomes U+FFFD. -/
def jsonText (t : Text) : Text :=
  t.map fun
    | .char c => .char c
    | .bad _ => .char '\ufffd'

/-- A gRPC status. -/
structure Status (D : Type) where
  code : UInt32
  message : Text
  details : List D

/-- What a handler returns as an error. A status around which an error is wrapped has the text of
that error. -/
inductive HandlerError (D : Type) where
  | status (s : Status D)
  | plain (text : Text)

def codeUnknown : UInt32 := 2

def codeInternal : UInt32 := 13

/-- `status.FromError`: the status that a caller sees, and whether the error carries one. -/
def fromError {D : Type} : HandlerError D → Status D × Bool
  | .status s => (s, true)
  | .plain text => (⟨codeUnknown, text, []⟩, false)

/-- A message: its full name, the fields that its type knows, and the bytes of the others. -/
structure Message (F : Type) where
  name : String
  fields : F
  unknown : List UInt8 := []

abbrev Outcome (D F : Type) := Except (HandlerError D) (Option (Message F))

/-- An `Any`. Its type URL is a message name behind a fixed host, or empty. -/
structure AnyValue (F : Type) where
  type : Option String := none
  value : Option (Message F) := none

/-- An error as it is cached. -/
structure TerminalError where
  code : Int32
  message : Text

/-- A response or an error. -/
structure CachedResponse (F : Type) where
  response : Option (AnyValue F) := none
  terminalError : Option TerminalError := none

/-- The message types linked into the binary, by name, the messages that `anypb.New` takes, and
`protojson`, which may refuse an `Any` (the type is not linked, a timestamp is out of range, a value
is no number). What it writes it reads back, without the fields that the type does not know. -/
structure Types (F : Type) where
  registered : String → Bool
  marshals : Message F → Bool
  JSON : Type
  marshal : AnyValue F → Except String JSON
  unmarshal : JSON → Except String (AnyValue F)
  empty : ∃ raw, marshal {} = .ok raw ∧ unmarshal raw = .ok {}
  roundTrip : ∀ m raw, marshal ⟨some m.name, some m⟩ = .ok raw → registered m.name = true ∧
    unmarshal raw = .ok ⟨some m.name, some { name := m.name, fields := m.fields }⟩

/-- `codes.Unavailable`, `DeadlineExceeded`, `ResourceExhausted`, `Aborted` and `Canceled`. -/
def isTransientCode (c : UInt32) : Bool := [14, 4, 8, 10, 1].contains c

/-- A cache entry as it is stored. -/
structure Envelope (J : Type) where
  kind : String
  response : Option J := none
  errCode : Int32 := 0
  errMsg : Text := []

section Cache
variable {D F : Type} (T : Types F)

def buildCachedFromOutcome : Outcome D F → Option (CachedResponse F)
  | .error herr =>
    let (st, ok) := fromError herr
    if !ok then
      some { terminalError := some ⟨codeInternal.toInt32, st.message⟩ }
    else if isTransientCode st.code then none
    else some { terminalError := some ⟨st.code.toInt32, st.message⟩ }
  | .ok none => some { response := some {} }
  | .ok (some msg) =>
    if T.marshals msg then some { response := some ⟨some msg.name, some msg⟩ } else none

def encodeEntry (c : CachedResponse F) : Except String (Envelope T.JSON) :=
  match c.response, c.terminalError with
  | none, none => .error "encodeEntry: both Response and TerminalError are nil"
  | some _, some _ =>
    .error "encodeEntry: both Response and TerminalError are set; expected exactly one"
  | some a, none => (T.marshal a).map fun raw => { kind := "response", response := some raw }
  | none, some e => .ok { kind := "error", errCode := e.code, errMsg := jsonText e.message }

def decodeEntry (env : Envelope T.JSON) : Except String (CachedResponse F) :=
  if env.kind = "response" then
    match env.response with
    | none => .error "decodeEntry: kind=response but no response payload"
    | some raw => (T.unmarshal raw).map fun a => { response := some a }
  else if env.kind = "error" then .ok { terminalError := some ⟨env.errCode, env.errMsg⟩ }
  else .error "decodeEntry: unknown kind"

/-- `grpcstatus.Error`, which gives no error for the code of success. -/
def statusError (code : UInt32) (message : Text) : Outcome D F :=
  if code = 0 then .ok none else .error (.status ⟨code, message, []⟩)

def unmarshalNew (a : AnyValue F) : Option (Message F) :=
  a.type.bind fun name => if T.registered name then a.value else none

def replayCached (c : CachedResponse F) : Outcome D F :=
  match c.terminalError, c.response with
  | some e, _ => statusError e.code.toUInt32 e.message
  | none, none =>
    .error (.plain (text "idempotency: cached entry has neither response nor terminal error"))
  | none, some a =>
    match unmarshalNew T a with
    | some m => .ok (some m)
    | none => statusError codeInternal (text "idempotency: failed to unmarshal cached response")

/-- The outcome of a call that finds what was stored for this one. -/
def replayed (c : CachedResponse F) : Except String (Outcome D F) :=
  (encodeEntry T c).bind fun stored => (decodeEntry T stored).map (replayCached T)

/-- The same response, or an error with the same code, message and details. -/
def Outcome.Same : Outcome D F → Outcome D F → Prop
  | .ok r, .ok r' => r = r'
  | .error e, .error e' => (fromError e).1 = (fromError e').1
  | _, _ => False

def Faithful (o : Outcome D F) : Prop :=
  ∀ entry, buildCachedFromOutcome T o = some entry →
    ∃ o', replayed T entry = .ok o' ∧ Outcome.Same o o'

/-- A message that `protojson` writes and that has no unknown fields, or a status that is not that of
success, has no details and a text in valid UTF-8. What is not cached is not replayed. -/
def Replayable : Outcome D F → Prop
  | .ok none => False
  | .ok (some m) => T.marshals m = true →
      (∃ raw, T.marshal ⟨some m.name, some m⟩ = .ok raw) ∧ m.unknown = []
  | .error (.plain _) => False
  | .error (.status s) => isTransientCode s.code = true ∨
      (s.code ≠ 0 ∧ s.details = [] ∧ ∀ r ∈ s.message, ∃ c, r = .char c)

end Cache

section Faithful
variable {D F : Type} {T : Types F}

lemma jsonText_eq_iff : jsonText t = t ↔ ∀ r ∈ t, ∃ c, r = .char c := by
  induction t with
  | nil => simp [jsonText]
  | cons r rs ih => cases r <;> simp_all [jsonText]

lemma replayed_terminalError (code message) :
    replayed (D := D) T { terminalError := some ⟨code, message⟩ } =
      .ok (statusError code.toUInt32 (jsonText message)) := rfl

lemma replayed_message (m : Message F) :
    replayed (D := D) T { response := some ⟨some m.name, some m⟩ } =
      (T.marshal ⟨some m.name, some m⟩).map fun _ =>
        .ok (some { name := m.name, fields := m.fields }) := by
  cases hw : T.marshal ⟨some m.name, some m⟩ with
  | error e => simp [replayed, encodeEntry, hw, Except.map, Except.bind]
  | ok raw =>
    obtain ⟨hk, rd⟩ := T.roundTrip m raw hw
    simp [replayed, encodeEntry, decodeEntry, replayCached, unmarshalNew, hw, rd, hk,
      Except.map, Except.bind]

lemma same_statusError {e : HandlerError D} :
    Outcome.Same (F := F) (.error e) (statusError code message) ↔
      code ≠ 0 ∧ (fromError e).1 = ⟨code, message, []⟩ := by
  unfold statusError
  split <;> simp_all [Outcome.Same, fromError]

/-- A status is replayed without its details. -/
lemma faithful_status_iff {s : Status D} :
    Faithful T (.error (.status s) : Outcome D F) ↔ isTransientCode s.code = true ∨
      (s.code ≠ 0 ∧ s.details = [] ∧ ∀ r ∈ s.message, ∃ c, r = .char c) := by
  unfold Faithful buildCachedFromOutcome
  by_cases htr : isTransientCode s.code = true
  · simp [fromError, htr]
  simp only [fromError, htr, Bool.not_true, Bool.false_eq_true, if_false,
    Option.some.injEq, forall_eq', replayed_terminalError, Except.ok.injEq, exists_eq_left',
    same_statusError, UInt32.toUInt32_toInt32, false_or]
  rw [← jsonText_eq_iff]
  obtain ⟨code, msg, det⟩ := s
  simp only [Status.mk.injEq, true_and]
  exact and_congr_right fun _ => ⟨fun h => ⟨h.2, h.1.symm⟩, fun h => ⟨h.2.symm, h.1⟩⟩

lemma faithful_iff (o : Outcome D F) : Faithful T o ↔ Replayable T o := by
  match o with
  | .ok none =>
    obtain ⟨raw, hw, rd⟩ := T.empty
    simp [Faithful, Replayable, buildCachedFromOutcome, replayed, encodeEntry, decodeEntry, hw,
      rd, replayCached, unmarshalNew, statusError, codeInternal, Outcome.Same, Except.map,
      Except.bind]
  | .ok (some m) =>
    by_cases mar : T.marshals m = true
    · simp only [Faithful, Replayable, buildCachedFromOutcome, replayed_message, mar, if_true,
        Option.some.injEq, forall_eq']
      cases T.marshal ⟨some m.name, some m⟩ with
      | error e => simp [Except.map]
      | ok raw =>
        cases m
        simp [Except.map, Outcome.Same]
    · simp [Faithful, Replayable, buildCachedFromOutcome, mar]
  | .error (.plain t) =>
    have hdff : codeUnknown ≠ codeInternal := by decide
    simp [Faithful, Replayable, buildCachedFromOutcome, fromError, replayed_terminalError,
      same_statusError, hdff]
  | .error (.status s) => exact faithful_status_iff

end Faithful

/-- Which outcomes are replayed as they were; and one with a transient code is not cached. -/
theorem replay_faithful_iff {D F : Type} (T : Types F) (o : Outcome D F) :
    (Faithful T o ↔ Replayable T o) ∧
      ∀ e, o = .error e → isTransientCode (fromError e).1.code = true →
        buildCachedFromOutcome T o = none := by
  refine ⟨faithful_iff o, ?_⟩
  rintro e rfl htr
  cases e with
  | plain t => simp [fromError, isTransientCode, codeUnknown] at htr
  | status s => simp_all [buildCachedFromOutcome, fromError]

/-- Every type is linked, and messages have no fields. -/
def allTypes : Types Unit where
  registered _ := true
  marshals _ := true
  JSON := Option String
  marshal a := .ok a.type
  unmarshal raw := .ok ⟨raw, raw.map fun name => { name, fields := () }⟩
  empty := ⟨none, rfl, rfl⟩
  roundTrip m raw written := by
    cases written
    exact ⟨rfl, rfl⟩

/-- A response that was nil comes back as an internal error, and a status without its details. -/
theorem nil_response_and_details_lost : (¬ Faithful allTypes (.ok none : Outcome String Unit)) ∧
      ¬ Faithful allTypes
        (.error (.status ⟨3, text "bad request", ["field"]⟩) : Outcome String Unit) := by
  simp [faithful_iff, Replayable, isTransientCode]

end Gibson.Idempotency
