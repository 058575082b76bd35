import Gibson.Lib.Split

/-! Identifiers of connector tools: the form with colons, and the flat form. -/

namespace Gibson.Toolid

open Split

abbrev Bytes := List UInt8

inductive Source where
  | mcp
  | native
  deriving DecidableEq

def Source.bytes : Source → Bytes
  | .mcp => [109, 99, 112]
  | .native => [110, 97, 116, 105, 118, 101]

def canonicalSep : Bytes := [58]

def flattenSep : Bytes := [95, 95]

/-- The connector is empty for a native tool. -/
structure ID where
  source : Source
  (connector tool : Bytes)
  deriving DecidableEq

inductive Error where
  /-- toolid: mcp id requires non-empty connector and tool -/
  | mcpRequires
  /-- toolid: native id requires non-empty tool -/
  | nativeRequires
  /-- toolid: %q segment must not contain %q -/
  | segmentSeparator
  /-- toolid: native tool must not contain %q -/
  | toolSeparator
  /-- toolid: empty id -/
  | emptyID
  /-- toolid: mcp id must be mcp:<connector>:<tool>, got %q -/
  | mcpForm (text : Bytes)
  /-- toolid: native id must be native:<tool>, got %q -/
  | nativeForm (text : Bytes)
  /-- toolid: unknown source %q in %q -/
  | unknownSource (source text : Bytes)
  /-- toolid: segment %q contains the %q separator; cannot flatten unambiguously -/
  | ambiguous (segment : Bytes)
  /-- toolid: flattened name %q is not a valid native function name (^[a-zA-Z0-9_-]{1,64}$) -/
  | functionName (flat : Bytes)
  /-- toolid: empty flattened name -/
  | emptyFlat
  /-- toolid: flattened mcp name must be mcp__<connector>__<tool>, got %q -/
  | flatMcpForm (flat : Bytes)
  /-- toolid: flattened native name must be native__<tool>, got %q -/
  | flatNativeForm (flat : Bytes)
  /-- toolid: unknown source in flattened name %q -/
  | flatUnknownSource (flat : Bytes)
  deriving DecidableEq

def forMCP (connector tool : Bytes) : Except Error ID :=
  if connector = [] ∨ tool = [] then .error .mcpRequires
  else if contains canonicalSep connector ∨ contains canonicalSep tool then
    .error .segmentSeparator
  else .ok ⟨.mcp, connector, tool⟩

def forNative (tool : Bytes) : Except Error ID :=
  if tool = [] then .error .nativeRequires
  else if contains canonicalSep tool then .error .toolSeparator
  else .ok ⟨.native, [], tool⟩

def decode (sep : Bytes) (empty mcp native : Error) (unknown : Bytes → Error) (text : Bytes) :
    Except Error ID :=
  match split sep text with
  | [] => .error empty
  | source :: parts =>
    if source = Source.mcp.bytes then
      match parts with
      | [connector, tool] =>
        if connector = [] ∨ tool = [] then .error mcp else .ok ⟨.mcp, connector, tool⟩
      | _ => .error mcp
    else if source = Source.native.bytes then
      match parts with
      | [tool] => if tool = [] then .error native else .ok ⟨.native, [], tool⟩
      | _ => .error native
    else .error (unknown source)

def parse (text : Bytes) : Except Error ID :=
  decode canonicalSep .emptyID (.mcpForm text) (.nativeForm text) (.unknownSource · text) text

def unflatten (flat : Bytes) : Except Error ID :=
  decode flattenSep .emptyFlat (.flatMcpForm flat) (.flatNativeForm flat)
    (fun _ => .flatUnknownSource flat) flat

def ID.canonical (id : ID) : Bytes :=
  if id.source = .native then Source.native.bytes ++ canonicalSep ++ id.tool
  else id.source.bytes ++ canonicalSep ++ id.connector ++ canonicalSep ++ id.tool

def ID.segments (id : ID) : List Bytes :=
  if id.source = .mcp then [id.source.bytes, id.connector, id.tool] else [id.source.bytes, id.tool]

def functionChar (b : UInt8) : Bool :=
  (97 ≤ b && b ≤ 122) || (65 ≤ b && b ≤ 90) || (48 ≤ b && b ≤ 57) || b == 95 || b == 45

def validFunctionName (text : Bytes) : Bool :=
  1 ≤ text.length && text.length ≤ 64 && text.all functionChar

def ID.flatten (id : ID) : Except Error Bytes :=
  match id.segments.find? (contains flattenSep) with
  | some segment => .error (.ambiguous segment)
  | none =>
    let flat := join flattenSep id.segments
    if validFunctionName flat then .ok flat else .error (.functionName flat)

/-- An identifier that one of the two constructors returned. -/
def Built (id : ID) : Prop :=
  (∃ connector tool, forMCP connector tool = .ok id) ∨ ∃ tool, forNative tool = .ok id

/-- No empty segment, and a connector exactly for a tool of a connector. -/
def ID.WellFormed (id : ID) : Prop :=
  id.tool ≠ [] ∧ (id.connector = [] ↔ id.source = .native)

variable {id : ID}

lemma Built.spec (hbu : Built id) : id.WellFormed ∧ contains canonicalSep id.connector = false ∧
      contains canonicalSep id.tool = false := by
  rcases hbu with ⟨cn, tool, ok⟩ | ⟨tool, ok⟩
  · by_cases hem : cn = [] ∨ tool = []
    · simp [forMCP, hem] at ok
    by_cases colon : contains canonicalSep cn ∨ contains canonicalSep tool
    · simp only [forMCP, hem, colon, if_false, if_true, reduceCtorEq] at ok
    rw [forMCP, if_neg hem, if_neg colon] at ok
    cases ok
    simp only [not_or, Bool.not_eq_true] at hem colon
    exact ⟨⟨hem.2, by simp [hem.1]⟩, colon⟩
  · by_cases hem : tool = []
    · simp [forNative, hem] at ok
    by_cases colon : contains canonicalSep tool
    · simp [forNative, hem, colon] at ok
    rw [forNative, if_neg hem, if_neg colon] at ok
    cases ok
    exact ⟨⟨hem, by simp⟩, rfl, by simpa using colon⟩

lemma ID.canonical_eq_join (id : ID) : id.canonical = join canonicalSep id.segments := by
  obtain ⟨src, cn, tool⟩ := id
  cases src <;> simp [canonical, segments]

/-- A decoder returns an identifier exactly for a text that splits into its segments. -/
lemma decode_eq_ok {hukn : Bytes → Error} (formed : id.WellFormed) :
    decode sep empty mcp native hukn text = .ok id ↔ split sep text = id.segments := by
  obtain ⟨src, cn, tool⟩ := id
  obtain ⟨hn, hlin⟩ := formed
  have hpt : Source.native.bytes ≠ Source.mcp.bytes := by decide
  constructor
  · intro ok
    simp only [decode] at ok
    split at ok <;> try contradiction
    rename_i h1 parts pcs
    by_cases isMcp : h1 = Source.mcp.bytes
    · simp only [isMcp, if_true] at ok
      split at ok <;> try contradiction
      split at ok <;> try contradiction
      cases ok
      simp [pcs, ID.segments, isMcp]
    by_cases isNative : h1 = Source.native.bytes
    · simp only [isNative, hpt, if_false, if_true] at ok
      split at ok <;> try contradiction
      split at ok <;> try contradiction
      cases ok
      simp [pcs, ID.segments, isNative]
    · simp only [isMcp, isNative, if_false] at ok
      contradiction
  · intro pcs
    cases src with
    | mcp =>
      have hpn : cn ≠ [] := by simpa using hlin
      rw [decode, pcs]
      simp [ID.segments, hpn, (hn : tool ≠ [])]
    | native =>
      obtain rfl : cn = [] := by simpa using hlin
      rw [decode, pcs]
      simp [ID.segments, hpt, (hn : tool ≠ [])]

lemma source_plain (src : Source) :
    contains canonicalSep src.bytes = false ∧ contains flattenSep src.bytes = false := by
  cases src <;> decide

lemma source_clear (src : Source) : Clear flattenSep src.bytes :=
  (clear_double (source_plain src).2).mpr (by cases src <;> decide)

lemma parse_canonical (hbu : Built id) : parse id.canonical = .ok id := by
  obtain ⟨formed, cn, tool⟩ := hbu.spec
  rw [parse, decode_eq_ok formed, ID.canonical_eq_join]
  have src := clear_single (source_plain id.source).1
  by_cases isMcp : id.source = .mcp
  · rw [ID.segments, if_pos isMcp]
    refine split_join (by decide) [id.source.bytes, id.connector] ?_ tool
    intro pc mem
    rcases List.mem_pair.mp mem with rfl | rfl
    · exact src
    · exact clear_single cn
  · rw [ID.segments, if_neg isMcp]
    refine split_join (by decide) [id.source.bytes] ?_ tool
    intro pc mem
    rwa [List.mem_singleton.mp mem]

lemma ID.flatten_ok (ok : id.flatten = .ok flat) :
    flat = join flattenSep id.segments ∧
      ∀ seg ∈ id.segments, contains flattenSep seg = false := by
  unfold ID.flatten at ok
  cases hf : id.segments.find? (contains flattenSep) with
  | some seg => simp [hf] at ok
  | none =>
    simp only [hf] at ok
    split at ok
    · cases ok
      exact ⟨rfl, fun seg mem => by simpa using List.find?_eq_none.mp hf seg mem⟩
    · contradiction

/-- The connector's name ends with an underscore. -/
def ID.TrailingUnderscore (id : ID) : Prop := id.connector.getLast? = some 95

instance (id : ID) : Decidable id.TrailingUnderscore :=
  inferInstanceAs (Decidable (id.connector.getLast? = some 95))

/-- A flat name is read back exactly if the connector does not end with an underscore. -/
lemma unflatten_flatten (formed : id.WellFormed) (ok : id.flatten = .ok flat) :
    unflatten flat = .ok id ↔ ¬id.TrailingUnderscore := by
  obtain ⟨rfl, hp⟩ := ID.flatten_ok ok
  rw [unflatten, decode_eq_ok formed]
  by_cases isMcp : id.source = .mcp
  · rw [ID.segments, if_pos isMcp] at hp ⊢
    have cn := clear_double (hp id.connector (by simp))
    constructor
    · intro pcs ends
      -- the split cut behind the source, and then in front of the connector's last byte
      obtain ⟨m, ha, hf, tail⟩ := cut_of_splitN pcs
      rw [join_cons_cons, source_clear id.source] at hf
      cases hf
      obtain ⟨-, ha, hf, -⟩ := cut_of_splitN tail
      rw [join_cons_cons] at hf
      exact cut_double_ne ends _ ha hf
    · intro ends
      refine split_join (by decide) [id.source.bytes, id.connector] ?_ (hp id.tool (by simp))
      intro pc mem
      rcases List.mem_pair.mp mem with rfl | rfl
      · exact source_clear id.source
      · exact cn.mpr ends
  · have isNative : id.source = .native := by
      cases h : id.source with
      | mcp => contradiction
      | native => rfl
    rw [ID.segments, if_neg isMcp] at hp ⊢
    have ends : ¬id.TrailingUnderscore := by
      simp [ID.TrailingUnderscore, formed.2.mpr isNative]
    refine iff_of_true ?_ ends
    refine split_join (by decide) [id.source.bytes] ?_ (hp id.tool (by simp))
    intro pc mem
    rw [List.mem_singleton.mp mem]
    exact source_clear id.source

/-- Accepted identifiers survive the canonical form. The flat form gives back exactly those whose
connector does not end with an underscore, and two of those never share a name. -/
theorem identifier_round_trip (id : ID) (built : Built id) : parse id.canonical = .ok id ∧
      ∀ flat, id.flatten = .ok flat → (unflatten flat = .ok id ↔ ¬id.TrailingUnderscore) ∧
        ∀ other, Built other → ¬id.TrailingUnderscore → ¬other.TrailingUnderscore →
          other.flatten = .ok flat → other = id := by
  refine ⟨parse_canonical built, fun flat ok => ?_⟩
  have hbk := unflatten_flatten built.spec.1 ok
  refine ⟨hbk, fun other built' ends ends' ok' => ?_⟩
  have back' := unflatten_flatten built'.spec.1 ok'
  exact Except.ok.inj ((back'.mpr ends').symm.trans (hbk.mpr ends))

theorem identifier_round_trip_mcp :
    parse (ID.canonical ⟨.mcp, [97], [98]⟩) = .ok ⟨.mcp, [97], [98]⟩ ∧
      unflatten [109, 99, 112, 95, 95, 97, 95, 95, 98] = .ok ⟨.mcp, [97], [98]⟩ := by
  have rou := identifier_round_trip ⟨.mcp, [97], [98]⟩ (.inl ⟨[97], [98], rfl⟩)
  exact ⟨rou.1, (rou.2 _ rfl).1.mpr (by decide)⟩

/-- The tool `b` of `a_` and the tool `_b` of `a` have one flat name. -/
theorem trailing_underscore_collides :
    ∃ a b flat, forMCP [97, 95] [98] = .ok a ∧ forMCP [97] [95, 98] = .ok b ∧ a ≠ b ∧
      a.flatten = .ok flat ∧ b.flatten = .ok flat ∧ unflatten flat = .ok b := by
  refine ⟨⟨.mcp, [97, 95], [98]⟩, ⟨.mcp, [97], [95, 98]⟩,
    [109, 99, 112, 95, 95, 97, 95, 95, 95, 98], ?_⟩
  decide

end Gibson.Toolid
