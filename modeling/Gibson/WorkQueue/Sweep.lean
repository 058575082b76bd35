import Gibson.WorkQueue.Queue
import Mathlib.Data.List.Rotate

/-! The claim of a shared component, which sweeps the streams of all tenants. A block of zero is
sent and has no end, so the sweep stops at the first empty stream. -/

namespace Gibson.WorkQueue

open ConsumerGroup Calls Redis Function Option List

/-- A poll of a shared component. -/
structure Poll where
  (kind name consumerID : String)
  blockTimeout : Int
  kind_ne : kind ≠ ""
  name_ne : name ≠ ""
  consumerID_ne : consumerID ≠ ""

/-- The claim with every command served and nobody else at work. -/
def Poll.claimAlone (poll : Poll) (turn : Turn) (s : Redis) :
    Option (Redis × Outcome (Option Message)) :=
  alone Redis.serve .served s
    (claim turn systemTenant poll.kind poll.name poll.consumerID poll.blockTimeout)

/-- The tenant streams of the component. -/
def Poll.streams (poll : Poll) (s : Redis) : List String :=
  tenantStreams (s.keys.filter (matchesPattern poll.kind poll.name))

/-- A stream holds an entry that was never handed out. -/
def Redis.Waiting (s : Redis) (stream : String) : Prop :=
  (s.streams stream).undelivered.isSome

/-- Waiting work is found, and its absence is reported without waiting. -/
def Poll.FindsWork (poll : Poll) (turn : Turn) (s : Redis) : Prop :=
  ((∃ stream ∈ poll.streams s, s.Waiting stream) →
      ∃ s' message, poll.claimAlone turn s = some (s', .ok (some message))) ∧
    ((∀ stream ∈ poll.streams s, ¬s.Waiting stream) →
      ∃ s', poll.claimAlone turn s = some (s', .ok none))

lemma Turn.order_perm (turn : Turn) (streams) : (turn.order streams).Perm streams :=
  (rotate_perm _ _).trans (turn.shuffle_perm streams)

lemma ensureGroups_alone (sms s) :
    ∃ s', alone serve .served s (ensureGroups sms) = some (s', .ok ()) ∧
      (∀ key, (s'.streams key).undelivered = (s.streams key).undelivered) ∧
      (∀ key, (s.streams key).group.isSome → (s'.streams key).group.isSome) ∧
      ∀ key ∈ sms, (s'.streams key).group.isSome := by
  induction sms generalizing s with
  | nil => exact ⟨s, rfl, fun _ => rfl, fun _ h => h, by simp⟩
  | cons sm sms ih =>
    obtain ⟨s', hdn, hs, kp, gps⟩ :=
      ih (s.setStream sm (s.streams sm).createGroup)
    refine ⟨s', hdn, ?_, ?_, ?_⟩
    · intro key
      rw [hs]
      by_cases hh : key = sm
      · subst hh
        simp [setStream]
      · simp [setStream, update_of_ne hh]
    · intro key has
      apply kp
      by_cases hh : key = sm
      · subst hh
        simp [setStream]
      · simpa [setStream, update_of_ne hh] using has
    · intro key mem
      obtain rfl | mem := mem_cons.mp mem
      · exact kp key (by simp [setStream])
      · exact gps key mem

lemma Poll.claimAlone_eq (po : Poll) (turn s) : po.claimAlone turn s =
      if po.streams s = [] then some (s, .ok none)
      else alone serve .served s (do
        match ← ensureGroups (turn.order (po.streams s)) with
        | .error e => pure (.error e)
        | .ok _ => sweep po.consumerID (turn.order (po.streams s))) := by
  have hfu : firstEmpty [("tenant", systemTenant), ("kind", po.kind), ("name", po.name),
      ("consumerID", po.consumerID)] = none := by
    simp [firstEmpty, po.kind_ne, po.name_ne, po.consumerID_ne, systemTenant]
  simp only [Poll.claimAlone, claim, hfu, if_true]
  show alone serve .served s (if po.streams s = [] then _ else _) = _
  split <;> rfl

lemma Poll.claimAlone_first (po : Poll) (turn s)
    (hor : turn.order (po.streams s) = h1 :: rs) :
    (∀ e, (s.streams h1).undelivered = some e → ∃ s', po.claimAlone turn s =
        some (s', .ok (some (Message.fromTenant ⟨h1, e.id, e.value⟩)))) ∧
      ((s.streams h1).undelivered = none → po.claimAlone turn s = none) := by
  have some_streams : po.streams s ≠ [] := by
    intro none
    have perm := turn.order_perm (po.streams s)
    rw [hor, none] at perm
    exact absurd perm.length_eq (by simp)
  obtain ⟨s', hdn, hs, -, gps⟩ := ensureGroups_alone (h1 :: rs) s
  have gp := gps h1 mem_cons_self
  have eq : po.claimAlone turn s =
      alone serve .served s' (sweep po.consumerID (h1 :: rs)) := by
    rw [po.claimAlone_eq, if_neg some_streams, hor, alone_bind, hdn]
    rfl
  rw [eq]
  constructor
  · intro e hf
    have rd : s'.perform false (.xreadgroup h1 po.consumerID 0 true) = some
        (s'.setStream h1 ((s'.streams h1).deliver e po.consumerID true s'.now),
          .ok (some ⟨h1, e.id, e.value⟩)) := by
      simp [perform, hs, hf, isSome_iff_ne_none.mp gp]
    refine ⟨s'.setStream h1 ((s'.streams h1).deliver e po.consumerID true s'.now), ?_⟩
    show (s'.perform false (.xreadgroup h1 po.consumerID 0 true)).bind _ = _
    rw [rd]
    rfl
  · intro hno
    have rd : s'.perform false (.xreadgroup h1 po.consumerID 0 true) = none := by
      simp [perform, hs, hno, isSome_iff_ne_none.mp gp]
    show (s'.perform false (.xreadgroup h1 po.consumerID 0 true)).bind _ = _
    rw [rd]
    rfl

/-- The claim finds waiting work, and reports its absence, exactly if there is no tenant stream at
all or the stream that its sweep reads first has work waiting. -/
theorem systemClaim_findsWork_iff (poll : Poll) (turn : Turn) (s : Redis) : poll.FindsWork turn s ↔
      poll.streams s = [] ∨ ∃ first, (turn.order (poll.streams s)).head? = some first ∧
        s.Waiting first := by
  cases order : turn.order (poll.streams s) with
  | nil =>
    have none : poll.streams s = [] := by
      have perm := turn.order_perm (poll.streams s)
      rw [order] at perm
      exact List.Perm.nil_eq perm |>.symm
    refine iff_of_true ⟨?_, ?_⟩ (.inl none)
    · rintro ⟨sm, mem, -⟩
      simp [none] at mem
    · intro _
      exact ⟨s, by rw [poll.claimAlone_eq, if_pos none]⟩
  | cons first rs =>
    have mem : first ∈ poll.streams s :=
      (turn.order_perm _).mem_iff.mp (by rw [order]; exact mem_cons_self)
    have hne : poll.streams s ≠ [] := ne_nil_of_mem mem
    obtain ⟨hf, stu⟩ := poll.claimAlone_first turn s order
    simp only [hne, head?_cons, some.injEq, false_or, exists_eq_left']
    constructor
    · intro fin
      by_contra hwt
      have none : (s.streams first).undelivered = none := by
        simpa [Redis.Waiting] using hwt
      -- Either way of meeting the claim returns something, and this claim returns nothing.
      by_cases work : ∃ sm ∈ poll.streams s, s.Waiting sm
      · obtain ⟨s', msg, hre⟩ := fin.1 work
        rw [stu none] at hre
        contradiction
      · obtain ⟨s', hre⟩ := fin.2 (by simpa using work)
        rw [stu none] at hre
        contradiction
    · intro hwt
      obtain ⟨e, hh⟩ := isSome_iff_exists.mp hwt
      obtain ⟨s', hre⟩ := hf e hh
      exact ⟨fun _ => ⟨s', _, hre⟩, fun hab => absurd hwt (hab first mem)⟩

/-- One tenant's work waits behind another tenant's empty stream. -/
theorem systemClaim_stuck_behind_empty : ∃ (poll : Poll) (turn : Turn) (s : Redis),
      poll.streams s = ["work:a:tool:nmap", "work:b:tool:nmap"] ∧
        s.Waiting "work:b:tool:nmap" ∧ poll.claimAlone turn s = none := by
  let poll : Poll :=
    ⟨"tool", "nmap", "worker-1", 1000, by decide, by decide, by decide⟩
  let turn : Turn := ⟨id, 0, fun _ => .rfl⟩
  let s : Redis :=
    { keys := ["work:a:tool:nmap", "work:b:tool:nmap"]
      streams := update (fun _ => {}) "work:b:tool:nmap"
        (Stream.add {} { workID := "w1" }) }
  have hor : turn.order (poll.streams s) = ["work:a:tool:nmap", "work:b:tool:nmap"] := by decide
  exact ⟨poll, turn, s, by decide, rfl, (poll.claimAlone_first turn s hor).2 rfl⟩

end Gibson.WorkQueue
