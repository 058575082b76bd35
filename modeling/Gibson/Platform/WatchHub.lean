import Gibson.Lib.Prefix

/-! The fan-out of manifest events. A dispatch copies its targets under the lock and sends to them
after it has let go. -/

namespace Gibson.Manifest

open List

/-- The tenant that a channel was made for, and its number. -/
abbrev Channel := String × Nat

/-- A call of `dispatch` that has let go of the lock: the subscribers it found, those still to send
to, and those that were offered the event. -/
structure Dispatch where
  tenantID : String
  subs : List Channel
  targets : List Channel := subs
  offered : List Channel := []

/-- The hub and its dispatches. -/
structure WatchHub where
  made : Nat := 0
  perTenant : List Channel := []
  closed : List Channel := []
  calls : List Dispatch := []
  panicked : Bool := false

/-- The targets are served in any order. A send that finds the buffer full is made again. -/
inductive Action where
  | subscribe (tenantID : String)
  | unsubscribe (ch : Channel)
  | dispatch (tenantID : String)
  | send (call : Nat) (ch : Channel) (full : Bool)

def Dispatch.offer (ch : Channel) (c : Dispatch) : Dispatch :=
  if ch ∈ c.targets then { c with targets := c.targets.erase ch, offered := ch :: c.offered }
  else c

def step (h : WatchHub) : Action → WatchHub
  | .subscribe tenantID =>
    { h with made := h.made + 1, perTenant := (tenantID, h.made) :: h.perTenant }
  | .unsubscribe ch =>
    if ch ∈ h.perTenant then
      { h with perTenant := h.perTenant.filter (· ≠ ch), closed := ch :: h.closed }
    else h
  | .dispatch tenantID =>
    if tenantID = "" then h
    else
      { h with calls := h.calls ++ [{ tenantID, subs := h.perTenant.filter (·.1 = tenantID) }] }
  | .send i ch full =>
    if (∃ c ∈ h.calls[i]?, ch ∈ c.targets) ∧ ch ∈ h.closed then { h with panicked := true }
    else if full then h
    else { h with calls := h.calls.modify i (.offer ch) }

def run (actions : List Action) : WatchHub := actions.foldl step {}

/-- Nothing was sent on a closed channel, no event was offered to another tenant, and a dispatch
that is through has offered its event to all whom it found. -/
def Safe (h : WatchHub) : Prop :=
  h.panicked = false ∧ ∀ c ∈ h.calls, (∀ ch ∈ c.offered, ch.1 = c.tenantID) ∧
    (c.targets = [] → ∀ ch ∈ c.subs, ch ∈ c.offered)

/-- Nobody leaves whom a dispatch has found and not served. -/
def Careful (h : WatchHub) : Action → Prop
  | .unsubscribe ch => ch ∈ h.perTenant → ∀ c ∈ h.calls, ch ∉ c.targets
  | _ => True

/-- A dispatch sends to its own. -/
structure Dispatch.Sound (closed : List Channel) (c : Dispatch) : Prop where
  aimed : ∀ ch ∈ c.targets, ch ∉ closed ∧ ch.1 = c.tenantID
  own : ∀ ch ∈ c.offered, ch.1 = c.tenantID
  served : ∀ ch ∈ c.subs, ch ∈ c.targets ∨ ch ∈ c.offered

/-- Nothing is sent to a closed channel. -/
structure Sound (h : WatchHub) : Prop where
  quiet : h.panicked = false
  listed : ∀ ch ∈ h.perTenant, ch ∉ h.closed ∧ ch.2 < h.made
  closed : ∀ ch ∈ h.closed, ch.2 < h.made
  calls : ∀ c ∈ h.calls, c.Sound h.closed

lemma Dispatch.Sound.offer {closed c} (hso : Dispatch.Sound closed c) (ch) :
    (c.offer ch).Sound closed := by
  unfold Dispatch.offer
  split
  case isFalse => exact hso
  case isTrue aim =>
    refine ⟨fun x mem => hso.aimed x (mem_of_mem_erase mem),
      forall_mem_cons.mpr ⟨(hso.aimed ch aim).2, hso.own⟩, fun x mem => ?_⟩
    by_cases now : x = ch
    · exact .inr (now ▸ mem_cons_self)
    · exact (hso.served x mem).imp (mem_erase_of_ne now).mpr (mem_cons_of_mem _)

lemma Sound.next {h a} (hso : Sound h) (car : Careful h a) : Sound (step h a) := by
  have ⟨hq, hl, hcl, cs⟩ := hso
  cases a with
  | subscribe tid =>
    refine ⟨hq, forall_mem_cons.mpr ⟨⟨fun old => ?_, Nat.lt_succ_self _⟩,
      fun ch mem => (hl ch mem).imp_right Nat.lt_succ_of_lt⟩,
      fun ch mem => Nat.lt_succ_of_lt (hcl ch mem), cs⟩
    exact Nat.lt_irrefl _ (hcl _ old)
  | unsubscribe ch =>
    rw [step]
    split
    case isFalse => exact hso
    case isTrue hh =>
      refine ⟨hq, fun x mem => ?_, forall_mem_cons.mpr ⟨(hl ch hh).2, hcl⟩,
        fun c mem => { cs c mem with aimed := fun x aim => ?_ }⟩
      · obtain ⟨mem, ho⟩ := mem_filter.mp mem
        exact (hl x mem).imp_left (not_mem_cons_of_ne_of_not_mem (of_decide_eq_true ho))
      · refine ((cs c mem).aimed x aim).imp_left (not_mem_cons_of_ne_of_not_mem ?_)
        rintro rfl
        exact car hh c mem aim
  | dispatch tid =>
    rw [step]
    split
    · exact hso
    refine ⟨hq, hl, hcl, forall_mem_append.mpr ⟨cs, forall_mem_singleton.mpr
      ⟨fun ch aim => ?_, nofun, fun ch mem => .inl mem⟩⟩⟩
    obtain ⟨mem, own⟩ := mem_filter.mp aim
    exact ⟨(hl ch mem).1, of_decide_eq_true own⟩
  | send i ch hfu =>
    rw [step, if_neg]
    · split
      · exact hso
      refine ⟨hq, hl, hcl, fun c mem => ?_⟩
      obtain ⟨j, hbd, rfl⟩ := getElem_of_mem mem
      rw [getElem_modify]
      split
      · exact (cs _ (getElem_mem _)).offer ch
      · exact cs _ (getElem_mem _)
    · rintro ⟨⟨c, cl, aim⟩, shut⟩
      exact ((cs c (mem_of_getElem? cl)).aimed ch aim).1 shut

lemma Sound.safe {h} (hso : Sound h) : Safe h := by
  refine ⟨hso.quiet, fun c mem => ⟨(hso.calls c mem).own, fun thr ch hf => ?_⟩⟩
  exact ((hso.calls c mem).served ch hf).resolve_left (thr ▸ not_mem_nil)

lemma run_concat (actions a) : run (actions ++ [a]) = step (run actions) a := by simp [run]

end Gibson.Manifest
