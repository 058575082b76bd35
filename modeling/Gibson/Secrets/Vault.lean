import Mathlib.Data.List.Dedup
import Gibson.Lib.Rows

/-! The Vault provider of a tenant's secrets. A deleted secret stays listed, and a secret with a
slash in its name is listed as a folder. -/

namespace Gibson.Vault

open List Rows

/-- The base64 text that a value is stored as. -/
structure Codec (Text : Type) where
  encode : List UInt8 → Text
  decode : Text → Option (List UInt8)
  decode_encode : ∀ v, decode (encode v) = some v

/-- A version of a secret. -/
structure Version (Text : Type) where
  data : Text
  deleted : Bool := false

/-- Every version that was written to the mount, the newest first. -/
abbrev KV (Text : Type) := List (List Char × Version Text)

inductive Error where
  | notFound | tooLarge | unavailable

/-- The namespace of a tenant. -/
structure Config where
  (vaultNamespace tenant : List Char)

variable {Text : Type} (b : Codec Text) (cfg : Config) (kv : KV Text) (name : List Char)

/-- The path that `List` reads, below which `kvPath` puts every secret. -/
def root : List Char :=
  if cfg.vaultNamespace ≠ [] then [] else "tenant/".toList ++ cfg.tenant ++ ['/']

def kvPath : List Char := root cfg ++ name

def maxVaultValueBytes : Nat := 2 ^ 20

def current (path : List Char) : Option (Version Text) :=
  (kv.find? (·.1 == path)).map Prod.snd

def get : Except Error (List UInt8) :=
  match current kv (kvPath cfg name) with
  | none => .error .notFound
  | some v =>
    if v.deleted then .error .notFound
    else (b.decode v.data).elim (.error .unavailable) .ok

def put (value : List UInt8) : KV Text × Except Error Unit :=
  if maxVaultValueBytes < value.length then (kv, .error .tooLarge)
  else ((kvPath cfg name, { data := b.encode value }) :: kv, .ok ())

def delete : KV Text :=
  updateFirst (·.1 == kvPath cfg name) (fun e => (e.1, { e.2 with deleted := true })) kv

/-- A direct child of the listed path: a secret, or a folder with a trailing slash. -/
def child (rest : List Char) : List Char :=
  if '/' ∈ rest then rest.takeWhile (· ≠ '/') ++ ['/'] else rest

def list (start : List Char) : List (List Char) :=
  (kv.filterMap fun e => (e.1.dropPrefix? (root cfg)).map child).dedup.filter fun key =>
    key.getLast? ≠ some '/' ∧ start.isPrefixOf key

inductive Call where
  | put (name : List Char) (value : List UInt8)
  | delete (name : List Char)

def step (kv : KV Text) : Call → KV Text
  | .put name value => (put b cfg kv name value).1
  | .delete name => delete cfg kv name

def run (calls : List Call) : KV Text := calls.foldl (step b cfg) []

variable {name}

lemma child_eq_iff : child rest = name ∧ name.getLast? ≠ some '/' ↔ rest = name ∧ '/' ∉ name := by
  unfold child
  split
  · next hi =>
    constructor
    · rintro ⟨rfl, hlt⟩
      simp at hlt
    · rintro ⟨rfl, none⟩
      exact absurd hi none
  · next free =>
    refine and_congr_right fun hs => ⟨fun _ => hs ▸ free, fun none hlt => ?_⟩
    exact none (mem_of_getLast? hlt)

lemma mem_list_iff (start) : name ∈ list cfg kv start ↔
    start <+: name ∧ '/' ∉ name ∧ (current kv (kvPath cfg name)).isSome := by
  have hst (rs) : (∃ e ∈ kv, e.1 = kvPath cfg rs) ↔
      (current kv (kvPath cfg rs)).isSome := by
    simp [current]
  rw [list, mem_filter, mem_dedup, mem_filterMap, decide_eq_true_iff, isPrefixOf_iff_prefix]
  constructor
  · rintro ⟨⟨e, mem, hf⟩, hlt, hsts⟩
    obtain ⟨rs, hdr, hs⟩ := Option.map_eq_some_iff.mp hf
    obtain ⟨rfl, free⟩ := child_eq_iff.mp ⟨hs, hlt⟩
    obtain ⟨front, pth, hs⟩ := dropPrefix?_eq_some_iff.mp hdr
    rw [eq_of_beq hs] at pth
    exact ⟨hsts, free, (hst rs).mp ⟨e, mem, pth⟩⟩
  · rintro ⟨hsts, free, hf⟩
    obtain ⟨e, mem, pth⟩ := (hst name).mpr hf
    obtain ⟨hs, hlt⟩ := child_eq_iff.mpr ⟨rfl, free⟩
    refine ⟨⟨e, mem, ?_⟩, hlt, hsts⟩
    rw [pth, kvPath, dropPrefix?_append_of_beq _ BEq.rfl, Option.map_some, hs]

def Encoded : Prop := ∀ e ∈ kv, ∃ value, e.2.data = b.encode value

lemma encoded_run (cs : List Call) : Encoded b (run b cfg cs) := by
  refine List.foldlRecOn cs _ (fun _ none => by cases none) fun kv enc cl _ => ?_
  cases cl with
  | put name vl =>
    simp only [step, put]
    split
    · exact enc
    rintro e (_ | ⟨_, old⟩)
    · exact ⟨vl, rfl⟩
    · exact enc e old
  | delete name =>
    exact forall_updateFirst enc fun _ _ hs => hs

variable {b kv}

lemma get_ok_iff (enc : Encoded b kv) : (∃ vl, get b cfg kv name = .ok vl) ↔
    ∃ v, current kv (kvPath cfg name) = some v ∧ v.deleted = false := by
  unfold get current
  cases hf : kv.find? (·.1 == kvPath cfg name) with
  | none => simp
  | some e =>
    obtain ⟨vl, data⟩ := enc e (mem_of_find?_eq_some hf)
    cases hdl : e.2.deleted <;> simp [hdl, data, b.decode_encode]

/-- `List` agrees with `Get` exactly if of the stored secrets with the prefix those are deleted that
have a slash in their name. -/
theorem list_agrees_iff (b : Codec Text) (calls : List Call) (start : List Char) :
    (∀ name, name ∈ list cfg (run b cfg calls) start ↔
        start <+: name ∧ ∃ value, get b cfg (run b cfg calls) name = .ok value) ↔
      ∀ name v, start <+: name → current (run b cfg calls) (kvPath cfg name) = some v →
        (v.deleted = true ↔ '/' ∈ name) := by
  refine forall_congr' fun name => ?_
  rw [mem_list_iff, get_ok_iff cfg (encoded_run b cfg calls)]
  cases current (run b cfg calls) (kvPath cfg name) with
  | none => simp
  | some v => by_cases sla : '/' ∈ name <;> cases deleted : v.deleted <;> simp [sla, deleted]

def plainText : Codec (List UInt8) := ⟨id, some, fun _ => rfl⟩

/-- A secret is written and deleted. -/
theorem deleted_secret_listed :
    let kv := run plainText ⟨[], ['t']⟩ [.put ['k'] [1], .delete ['k']]
    ['k'] ∈ list ⟨[], ['t']⟩ kv [] ∧ get plainText ⟨[], ['t']⟩ kv ['k'] = .error .notFound :=
  ⟨by decide, rfl⟩

end Gibson.Vault
