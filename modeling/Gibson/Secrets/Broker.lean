import Mathlib.Data.List.Induction
import Gibson.Lib.Circuit

/-! The secrets broker: one circuit breaker for each tenant. Every error of the provider counts as a
failure of the breaker. -/

namespace Gibson.Secrets

open List Circuit Function Prod

inductive Kind where
  | notFound
  | permissionDenied
  | unavailable
  | invalidArgument
  | unsupported
  | tooLarge
  deriving DecidableEq

def Kind.text : Kind → String
  | .notFound => "secrets: not found"
  | .permissionDenied => "secrets: permission denied"
  | .unavailable => "secrets: unavailable"
  | .invalidArgument => "secrets: invalid argument"
  | .unsupported => "secrets: operation not supported by this provider"
  | .tooLarge => "secrets: value exceeds provider maximum size"

/-- An error with its kind. -/
structure Err where
  kind : Kind
  text : String
  deriving DecidableEq

/-- What a provider can do. -/
structure Capabilities where
  (canPut canDelete canList : Bool)
  /-- Zero is no limit. -/
  maxValueBytes : Int

inductive Op (F : Type) where
  | get (name : String)
  | put (name : String) (value : List UInt8)
  | delete (name : String)
  | list (filter : F)

/-- What a call returns: a value or names, where the operation has them, and an error. -/
structure Answer (V : Type) where
  value : Option V
  err : Option Err
  deriving DecidableEq

/-- The settings of a breaker. -/
structure CircuitConfig where
  (consecutiveFailures interval timeout : Nat)

def defaultCircuitConfig : CircuitConfig := ⟨5, 60000000000, 30000000000⟩

/-- A breaker without a timeout waits a minute. -/
def breakerSettings (cfg : CircuitConfig) : Settings :=
  let cfg := if cfg.consecutiveFailures = 0 then defaultCircuitConfig else cfg
  { maxRequests := 1
    interval := cfg.interval
    timeout := if cfg.timeout = 0 then 60000000000 else cfg.timeout
    threshold := cfg.consecutiveFailures }

/-- One call of the broker, with what the provider answers when it is asked. -/
structure Call (T F V : Type) where
  tenant : T
  op : Op F
  answer : Answer V

/-- When the call looks up its breaker, asks it, and has the provider's answer. -/
structure Times where
  (lookup start finish : Int)

section
variable {T F V : Type} [DecidableEq T] (providerName : String) (tenantText : T → String)
variable (caps : Capabilities) (cfg : CircuitConfig)

def refusal : Op F → Option Err
  | .get name => nameRefusal name
  | .put name value =>
    (nameRefusal name).orElse fun _ =>
      if !caps.canPut then some (unsupported "Put")
      else if 0 < caps.maxValueBytes ∧ caps.maxValueBytes < value.length then
        some ⟨.tooLarge, Kind.tooLarge.text ++ ": " ++ toString value.length ++ " bytes (max " ++
          toString caps.maxValueBytes ++ ")"⟩
      else none
  | .delete name =>
    (nameRefusal name).orElse fun _ =>
      if !caps.canDelete then some (unsupported "Delete") else none
  | .list _ => if !caps.canList then some (unsupported "List") else none
where
  nameRefusal (name : String) : Option Err :=
    if name = "" then
      some ⟨.invalidArgument, Kind.invalidArgument.text ++ ": name must not be empty"⟩
    else none
  unsupported (op : String) : Err :=
    ⟨.unsupported, Kind.unsupported.text ++ ": provider " ++ providerName ++
      " does not support " ++ op⟩

/-- What the provider returns from the operation: `Put` and `Delete` have no value. -/
def Call.provided (c : Call T F V) : Answer V :=
  match c.op with
  | .get _ | .list _ => c.answer
  | .put _ _ | .delete _ => ⟨none, c.answer.err⟩

def Call.failed (c : Call T F V) : Bool := c.answer.err.isSome

def circuitOpen (tenant : T) : Err :=
  ⟨.unavailable, "circuit open for tenant=" ++ tenantText tenant ++ " provider=" ++ providerName ++
    ": " ++ Kind.unavailable.text⟩

abbrev Breakers (T : Type) := T → Option Breaker

def execute (breakers : Breakers T) (c : Call T F V) (at' : Times) : Breakers T × Answer V :=
  let b := (breakers c.tenant).getD (newBreaker (breakerSettings cfg) at'.lookup)
  let out := b.execute (breakerSettings cfg) at'.start at'.finish c.failed
  (update breakers c.tenant (some out.1),
    match out.2 with
    | some _ => ⟨none, some (circuitOpen providerName tenantText c.tenant)⟩
    | none => c.provided)

def step (breakers : Breakers T) (c : Call T F V) (at' : Times) : Breakers T × Answer V :=
  match refusal providerName caps c.op with
  | some err => (breakers, ⟨none, some err⟩)
  | none => execute providerName tenantText cfg breakers c at'

def breakersAfter (calls : List (Call T F V × Times)) : Breakers T :=
  calls.foldl (fun breakers c => (step providerName tenantText caps cfg breakers c.1 c.2).1)
    fun _ => none

/-- What the broker returns from a call that comes after others. -/
def returned (before : List (Call T F V × Times)) (c : Call T F V) (at' : Times) : Answer V :=
  (step providerName tenantText caps cfg
    (breakersAfter providerName tenantText caps cfg before) c at').2

/-- The outcomes of the tenant's calls that reached the provider, the last one first. -/
def history (tenant : T) (calls : List (Call T F V)) : List Bool :=
  ((calls.filter fun c => (refusal providerName caps c.op).isNone && c.tenant = tenant).map
    Call.failed).reverse

/-- A call passes the checks in front of the breaker. -/
def Call.Passes (c : Call T F V) : Prop := refusal providerName caps c.op = none

/-- The provider is up: it never says that it is unavailable. -/
def Call.Healthy (c : Call T F V) : Prop := ∀ err ∈ c.answer.err, err.kind ≠ .unavailable

variable {providerName tenantText caps cfg}

lemma breakersAfter_append (cs : List (Call T F V × Times)) (c : Call T F V) (at') :
    breakersAfter providerName tenantText caps cfg (cs ++ [(c, at')]) =
      (step providerName tenantText caps cfg
        (breakersAfter providerName tenantText caps cfg cs) c at').1 := by
  rw [breakersAfter, foldl_append]
  rfl

lemma history_append_other {cs : List (Call T F V)} {c : Call T F V}
    (ho : ¬(c.Passes providerName caps ∧ c.tenant = tenant)) :
    history providerName caps tenant (cs ++ [c]) = history providerName caps tenant cs := by
  have hsc : ((refusal providerName caps c.op).isNone && decide (c.tenant = tenant)) = false := by
    simpa [Call.Passes] using ho
  rw [history, filter_append, filter_cons_of_neg (by simp [hsc]), filter_nil,
    append_nil, history]

lemma history_append {c : Call T F V} (hps : c.Passes providerName caps) :
    history providerName caps c.tenant (calls ++ [c]) =
      c.failed :: history providerName caps c.tenant calls := by
  have htk : ((refusal providerName caps c.op).isNone && decide (c.tenant = c.tenant)) = true := by
    rw [show refusal providerName caps c.op = none from hps]
    simp
  rw [history, filter_append, filter_cons_of_pos (by exact htk), filter_nil, map_append,
    reverse_append, history]
  rfl

/-- A call that does not pass, or of another tenant, leaves the tenant's breaker alone. -/
lemma step_other {c : Call T F V} (ho : ¬(c.Passes providerName caps ∧ c.tenant = tenant)) :
    (step providerName tenantText caps cfg breakers c at').1 tenant = breakers tenant := by
  unfold step
  cases href : refusal providerName caps c.op with
  | some err => rfl
  | none =>
    have hpt : tenant ≠ c.tenant := fun hs => ho ⟨href, hs.symm⟩
    exact update_of_ne hpt _ _

def breakerOf (breakers : Breakers T) (cfg : CircuitConfig) (tenant : T) (now : Int) : Breaker :=
  (breakers tenant).getD (newBreaker (breakerSettings cfg) now)

lemma step_passes {c : Call T F V} (hps : c.Passes providerName caps) :
    step providerName tenantText caps cfg breakers c at' =
      execute providerName tenantText cfg breakers c at' := by
  rw [step, hps]

/-- A call that passes asks the tenant's breaker. -/
lemma breakerOf_step {c : Call T F V} (hps : c.Passes providerName caps) (now : Int) :
    breakerOf (step providerName tenantText caps cfg breakers c at').1 cfg c.tenant now =
      ((breakerOf breakers cfg c.tenant at'.lookup).execute (breakerSettings cfg) at'.start
        at'.finish c.failed).1 := by
  rw [step_passes hps, breakerOf, execute]
  simp only [update_self, Option.getD_some]
  rfl

lemma threshold_pos (cfg) : 0 < (breakerSettings cfg).threshold := by
  by_cases zero : cfg.consecutiveFailures = 0
  · simp [breakerSettings, zero, defaultCircuitConfig]
  · simp only [breakerSettings, zero, if_false]
    omega

def Quiet (b : Breaker) (past : List Bool) : Prop :=
  b.state = .closed ∧ b.counts.consecutiveFailures ≤ streak past

lemma breakers_quiet {cs : List (Call T F V × Times)} {tn : T}
    (hsy : Steady (breakerSettings cfg).threshold
      (history providerName caps tn (cs.map fst))) (now : Int) :
    Quiet (breakerOf (breakersAfter providerName tenantText caps cfg cs) cfg tn now)
      (history providerName caps tn (cs.map fst)) := by
  induction cs using reverseRecOn generalizing now with
  | nil => exact ⟨rfl, Nat.zero_le _⟩
  | append_singleton cs tim ih =>
    obtain ⟨c, at'⟩ := tim
    rw [map_append, map_singleton] at hsy ⊢
    rw [breakersAfter_append]
    by_cases own : c.Passes providerName caps ∧ c.tenant = tn
    · obtain ⟨hps, rfl⟩ := own
      rw [history_append hps] at hsy ⊢
      obtain ⟨hcl, few⟩ := ih hsy.2 at'.lookup
      have spec := (execute_closed (breakerSettings cfg) hcl at'.start at'.finish c.failed).2
      have nx := spec (fun hfa => by
        have hbe := hsy.1
        rw [hfa] at hbe
        simp only [streak] at hbe
        omega)
      rw [breakerOf_step hps]
      refine ⟨nx.1, le_trans nx.2 ?_⟩
      cases c.failed with
      | false => exact Nat.le_refl 0
      | true => simpa [streak] using few
    · rw [history_append_other own] at hsy ⊢
      rw [breakerOf, step_other own]
      exact ih hsy now

def still : Times := ⟨0, 0, 0⟩

def Counting (threshold : Nat) (b : Breaker) (past : List Bool) : Prop :=
  b.Held 0 ∧
    ((Steady threshold past ∧ b.state = .closed ∧ b.counts.consecutiveFailures = streak past) ∨
      (¬Steady threshold past ∧ b.state = .opened))

lemma breakers_counting (cs : List (Call T F V)) (tenant) :
    Counting (breakerSettings cfg).threshold
      (breakerOf (breakersAfter providerName tenantText caps cfg (cs.map (·, still))) cfg tenant 0)
      (history providerName caps tenant cs) := by
  induction cs using reverseRecOn with
  | nil => exact ⟨held_toNewGeneration _ _ 0, .inl ⟨trivial, rfl, rfl⟩⟩
  | append_singleton cs c ih =>
    rw [map_append, map_singleton, breakersAfter_append]
    by_cases own : c.Passes providerName caps ∧ c.tenant = tenant
    · obtain ⟨hps, rfl⟩ := own
      rw [history_append hps, breakerOf_step hps]
      obtain ⟨hhe, ⟨hsy, hcl, ct⟩ | ⟨tri, hop⟩⟩ := ih
      · obtain ⟨hel, nx⟩ := execute_held (breakerSettings cfg) hhe hcl c.failed
        refine ⟨hel, ?_⟩
        by_cases tri0 : c.failed ∧
            (breakerSettings cfg).threshold ≤ streak (history providerName caps c.tenant cs) + 1
        · refine .inr ⟨fun hla => ?_, ?_⟩
          · have hbe := hla.1
            rw [tri0.1] at hbe
            simp only [streak] at hbe
            omega
          · rwa [ct, if_pos tri0] at nx
        · rw [ct, if_neg tri0] at nx
          refine .inl ⟨⟨?_, hsy⟩, nx.1, nx.2.trans ?_⟩
          · cases hfa : c.failed with
            | false => exact threshold_pos cfg
            | true =>
              simp only [hfa, true_and] at tri0
              simp only [streak]
              omega
          · cases c.failed <;> rfl
      · have href := execute_opened (breakerSettings cfg) hhe hop c.failed
        refine ⟨?_, .inr ⟨fun hla => tri hla.2, ?_⟩⟩
        · exact congrArg fst href ▸ hhe
        · exact congrArg fst href ▸ hop
    · rwa [history_append_other own, breakerOf, step_other own]

/-- The broker is transparent exactly if no call comes after as many failures in a row of its tenant
as the threshold says; a name that is not there is such a failure. -/
theorem broker_transparent_iff (calls : List (Call T F V)) (healthy : ∀ c ∈ calls, c.Healthy) :
    (∀ timed : List (Call T F V × Times), timed.map Prod.fst = calls →
      ∀ before c at' after, timed = before ++ (c, at') :: after → c.Passes providerName caps →
        returned providerName tenantText caps cfg before c at' = c.provided) ↔
    ∀ before c after, calls = before ++ c :: after → c.Passes providerName caps →
      Steady (breakerSettings cfg).threshold (history providerName caps c.tenant before) := by
  constructor
  · intro tra before c after split hps
    by_contra tripped
    have fro := tra (calls.map (·, still)) (by simp [comp_def])
      (before.map (·, still)) c still (after.map (·, still)) (by rw [split]; simp) hps
    obtain ⟨hhe, ⟨hsy, -⟩ | ⟨-, hop⟩⟩ :=
      @breakers_counting _ _ _ _ providerName tenantText caps cfg before c.tenant
    · exact tripped hsy
    have href := execute_opened (breakerSettings cfg) hhe hop c.failed
    have an : returned providerName tenantText caps cfg (before.map (·, still)) c still =
        ⟨none, some (circuitOpen providerName tenantText c.tenant)⟩ := by
      rw [returned, step_passes hps, execute]
      simp only [breakerOf, still] at href ⊢
      rw [href]
    -- the provider's own error is another one
    have hs : c.answer.err = some (circuitOpen providerName tenantText c.tenant) := by
      have errs := congrArg Answer.err (fro.symm.trans an)
      have own : c.provided.err = c.answer.err := by
        rw [Call.provided]
        cases c.op <;> rfl
      exact own.symm.trans errs
    exact healthy c (by simp [split]) _ hs rfl
  · rintro hsy timed rfl before c at' after rfl hps
    have hq := @breakers_quiet _ _ _ _ providerName tenantText caps cfg before c.tenant
      (hsy (before.map fst) c (after.map fst) (by simp) hps) at'.lookup
    have had := (execute_closed (breakerSettings cfg) hq.1 at'.start at'.finish c.failed).1
    rw [returned, step_passes hps, execute]
    simp only [breakerOf] at had ⊢
    rw [had]

end

/-- A look-up, of a provider without any other operation. -/
def lookup (name : String) (answer : Answer (List UInt8)) : Call Unit Unit (List UInt8) :=
  ⟨(), .get name, answer⟩

def absent : Call Unit Unit (List UInt8) :=
  lookup "absent" ⟨none, some ⟨.notFound, Kind.notFound.text⟩⟩

def present : Call Unit Unit (List UInt8) := lookup "present" ⟨some [1], none⟩

def readOnly : Capabilities := ⟨false, false, false, 0⟩

theorem broker_transparent_iff_once :
    returned "vault" (fun _ => "t") readOnly defaultCircuitConfig [(absent, still)] present still =
      present.provided := by
  refine (broker_transparent_iff [absent, present] ?_).mpr ?_ [(absent, still), (present, still)]
    rfl [(absent, still)] present still [] rfl rfl
  · intro c mem err has
    rcases mem_pair.mp mem with rfl | rfl
    · cases has
      decide
    · cases has
  · intro hb c ha split hps
    match hb, split with
    | [], split => exact trivial
    | [_], split =>
      obtain ⟨rfl, -⟩ := List.cons.inj split
      have tn : c.tenant = () := rfl
      rw [tn]
      decide
    | _ :: _ :: rs, split => simp at split

/-- Five look-ups of a name that is not there, and the tenant's other secret is unavailable. -/
theorem absent_names_open_the_circuit :
    (∀ c ∈ List.replicate 5 absent ++ [present], c.Healthy ∧ c.Passes "vault" readOnly) ∧
      returned "vault" (fun _ => "t") readOnly defaultCircuitConfig
        (List.replicate 5 (absent, still)) present still = ⟨none, some ⟨.unavailable,
        "circuit open for tenant=t provider=vault: secrets: unavailable"⟩⟩ := by
  refine ⟨?_, by decide⟩
  intro c mem
  rcases mem_append.mp mem with abs | last
  · obtain rfl := eq_of_mem_replicate abs
    refine ⟨fun err has => ?_, rfl⟩
    cases has
    decide
  · obtain rfl := mem_singleton.mp last
    exact ⟨fun err has => (by cases has), rfl⟩

end Gibson.Secrets
