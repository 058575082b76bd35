import Gibson.TimelineArchive.Export

/-! What concurrent archive runs keep. A removed row is in the bucket unless a run writes a range
again that it read after some of its rows were removed. -/

namespace Gibson.TimelineArchive

open Datapool (StreamID)
open List Interleaving Archive Option

section
variable (folder : String)

/-- Every removed row is in the body last written under the name of an exported range that covers
it. -/
def Contained (t : Tables) : Prop :=
  ∀ row ∈ t.inserted, row ∉ t.rows → ∃ r body, r.last ≤ t.exported ∧ r.Covers row.id ∧
    t.body folder (objectKey folder r) = some body ∧ row ∈ body

/-- Ranges written under different names are disjoint. -/
def Apart (t : Tables) : Prop :=
  ∀ o ∈ t.objects, ∀ o' ∈ t.objects, objectKey folder o.1 ≠ objectKey folder o'.1 →
    ∀ id, ¬(o.1.Covers id ∧ o'.1.Covers id)

end

/-- The step writes a range from a read that came after a row of the range was removed. -/
def Truncates (w : World Tables Call) (x : ArchiveStep) : Prop :=
  ∃ i answer r body, x = .advance i answer ∧ answer.fails = false ∧
    w.calls[i]? = some (.put r body) ∧
    ∃ row ∈ w.shared.inserted, row ∉ w.shared.rows ∧ r.Covers row.id ∧ row ∉ body

/-- What any later state keeps. -/
structure Grows (t t' : Tables) : Prop where
  exported : t.exported ≤ t'.exported
  objects : t.objects ⊆ t'.objects
  inserted : t.inserted ⊆ t'.inserted
  fresh : ∀ row ∈ t'.inserted, row ∈ t.inserted ∨ ∀ x ∈ t.inserted, x.id < row.id
  removed : ∀ row ∈ t.inserted, row ∈ t'.rows → row ∈ t.rows

lemma Grows.refl (t) : Grows t t :=
  ⟨le_rfl, List.Subset.refl _, List.Subset.refl _, fun _ mem => .inl mem, fun _ _ mem => mem⟩

lemma insertRow_grows (t row) : Grows t (insertRow t row) := by
  unfold insertRow
  split
  next hinc =>
    refine ⟨le_rfl, List.Subset.refl _, subset_append_left _ _, fun x mem => ?_,
      fun x old mem => ?_⟩
    · rcases mem_append.mp mem with mem | new
      · exact .inl mem
      · rw [mem_singleton.mp new]
        exact .inr hinc
    · rcases mem_append.mp mem with mem | new
      · exact mem
      · rw [mem_singleton.mp new] at old
        exact absurd (hinc row old) (lt_irrefl _)
  · exact .refl t

/-- Each claimed range is pending or passed, each passed one is in the bucket, with the rows that
were not removed when they were read. -/
structure Tables.Sound (claimed : List Range) (t : Tables) : Prop where
  ordered : t.inserted.Pairwise fun x y => x.id < y.id
  stored : t.rows.Sublist t.inserted
  behind : ∀ row ∈ t.inserted, t.exported < row.id → row ∈ t.rows
  settled : ∀ r ∈ claimed, r.last ≤ t.exported ∨ t.pending = some r
  pending : ∀ r, t.pending = some r → r ∈ claimed ∧ t.exported < r.first
  reached : t.exported = ⊥ ∨ ∃ r ∈ claimed, t.exported = r.last
  apart : ∀ r ∈ claimed, ∀ s ∈ claimed, ∀ id, r.Covers id → s.Covers id → r = s
  known : ∀ r ∈ claimed, r.first ≤ r.last ∧ ∃ row ∈ t.inserted, row.id = r.last
  covered : ∀ row ∈ t.inserted, row.id ≤ t.exported ∨ (∃ r, t.pending = some r ∧ row.id ≤ r.last) →
    ∃ r ∈ claimed, r.Covers row.id
  objects : ∀ o ∈ t.objects, o.1 ∈ claimed
  written : ∀ r ∈ claimed, r.last ≤ t.exported → ∃ body, (r, body) ∈ t.objects
  bodies : ∀ o ∈ t.objects, ∀ row ∈ t.inserted, o.1.Covers row.id → row ∈ o.2 ∨ row ∉ t.rows

/-- A run has a claimed range in hand, with the rows that were not removed when it read them. -/
def Call.Sound (claimed : List Range) (t : Tables) : Call → Prop
  | .read r => r ∈ claimed
  | .put r body => r ∈ claimed ∧
    ∀ row ∈ t.inserted, r.Covers row.id → row ∈ body ∨ row ∉ t.rows
  | .advance r => r ∈ claimed ∧ ∃ body, (r, body) ∈ t.objects
  | .remove exported => exported ≤ t.exported
  | .claim | .position | .ended => True

section
variable {claimed : List Range} {t : Tables}

lemma Tables.Sound.old (hso : t.Sound claimed) (hg : Grows t t') (mem : r ∈ claimed)
    (hi : row ∈ t'.inserted) (hcov : r.Covers row.id) : row ∈ t.inserted := by
  rcases hg.fresh row hi with old | new
  · exact old
  obtain ⟨-, x, mb, hlt⟩ := hso.known r mem
  have hab := new x mb
  rw [hlt] at hab
  exact absurd (lt_of_lt_of_le hab hcov.2) (lt_irrefl _)

lemma Tables.Sound.kept (hso : t.Sound claimed) (hg : Grows t t') (mem : r ∈ claimed)
    {bd : List Row} (rw0 : ∀ row ∈ t.inserted, r.Covers row.id → row ∈ bd ∨ row ∉ t.rows) :
    ∀ row ∈ t'.inserted, r.Covers row.id → row ∈ bd ∨ row ∉ t'.rows := by
  intro row hi hcov
  have old := hso.old hg mem hi hcov
  exact (rw0 row old hcov).imp_right fun hgn hsy => hgn (hg.removed row old hsy)

lemma Call.Sound.mono {c : Call} (cl : c.Sound claimed t) (hso : t.Sound claimed)
    (hg : Grows t t') (more : claimed ⊆ claimed') : c.Sound claimed' t' := by
  cases c with
  | read r => exact more cl
  | put r bd => exact ⟨more cl.1, hso.kept hg cl.1 cl.2⟩
  | advance r =>
    obtain ⟨mem, bd, hw⟩ := cl
    exact ⟨more mem, bd, hg.objects hw⟩
  | remove hex => exact le_trans cl hg.exported
  | claim | position | ended => trivial

section
variable (hso : t.Sound claimed)
include hso

lemma Tables.Sound.insert (row) : (insertRow t row).Sound claimed := by
  have hg := insertRow_grows t row
  unfold insertRow at hg ⊢
  split at hg
  next hinc =>
    rw [if_pos hinc]
    -- a new row lies beyond every claimed range and beyond the position
    have hby : ∀ r ∈ claimed, r.last < row.id := by
      intro r mem
      obtain ⟨-, x, mb, hlt⟩ := hso.known r mem
      rw [← hlt]
      exact hinc x mb
    refine { hso with
      ordered := ?_, stored := ?_, behind := ?_, known := ?_, covered := ?_, bodies := ?_ }
    · refine pairwise_append.mpr ⟨hso.ordered, pairwise_singleton _ _, ?_⟩
      intro x mb y new
      rw [mem_singleton.mp new]
      exact hinc x mb
    · exact hso.stored.append (List.Sublist.refl _)
    · intro x mb hab
      rcases mem_append.mp mb with old | new
      · exact mem_append_left _ (hso.behind x old hab)
      · exact mem_append_right _ new
    · intro r mem
      obtain ⟨hor, x, mb, hlt⟩ := hso.known r mem
      exact ⟨hor, x, mem_append_left _ mb, hlt⟩
    · intro x mb hwi
      rcases mem_append.mp mb with old | new
      · exact hso.covered x old hwi
      obtain rfl := mem_singleton.mp new
      rcases hwi with hwi | ⟨r, hp, hwi⟩
      · rcases hso.reached with none | ⟨r, mem, hlt⟩
        · simp [none] at hwi
        · rw [hlt, WithBot.coe_le_coe] at hwi
          exact absurd (hby r mem) (not_lt_of_ge hwi)
      · exact absurd (hby r (hso.pending r hp).1) (not_lt_of_ge hwi)
    · intro o mb
      exact hso.kept hg (hso.objects o mb) (hso.bodies o mb)
  · split
    · contradiction
    · exact hso

lemma nextRange {bt first last}
    (hd : ((t.rows.filter fun row => t.exported < row.id).take bt).head? = some first)
    (tail : ((t.rows.filter fun row => t.exported < row.id).take bt).getLast? = some last) :
    t.exported < first.id ∧ first.id ≤ last.id ∧ last ∈ t.inserted ∧
      ∀ row ∈ t.inserted, t.exported < row.id → first.id ≤ row.id := by
  have hsr : (t.rows.filter fun row => t.exported < row.id).Pairwise fun x y => x.id < y.id :=
    (hso.ordered.sublist hso.stored).sublist filter_sublist
  obtain ⟨rs, s0⟩ :
      ∃ rs, (t.rows.filter fun row => t.exported < row.id) = first :: rs := by
    cases hwh : t.rows.filter fun row => t.exported < row.id with
    | nil => simp [hwh] at hd
    | cons x rs =>
      cases bt with
      | zero => simp at hd
      | succ bt =>
        rw [hwh, take_succ_cons, List.head?_cons] at hd
        exact ⟨rs, by rw [some.inj hd]⟩
  have lea : ∀ row ∈ t.rows.filter (fun row => t.exported < row.id), first.id ≤ row.id := by
    intro row mem
    rw [s0] at mem hsr
    rcases mem_cons.mp mem with rfl | later
    · exact le_rfl
    · exact le_of_lt ((pairwise_cons.mp hsr).1 row later)
  have las :=
    mem_of_mem_take (mem_of_getLast? tail)
  have fir : first ∈ t.rows.filter fun row => t.exported < row.id := by
    rw [s0]
    exact mem_cons_self
  refine ⟨by simpa using (mem_filter.mp fir).2, lea last las,
    hso.stored.subset (mem_filter.mp las).1, fun row mem hab => ?_⟩
  exact lea row (mem_filter.mpr ⟨hso.behind row mem hab, by simpa using hab⟩)

lemma Tables.Sound.setPending (hil : t.pending = none) (hab : t.exported < r.first)
    (hor : r.first ≤ r.last) (ends : ∃ row ∈ t.inserted, row.id = r.last)
    (hcov : ∀ row ∈ t.inserted, t.exported < row.id → r.first ≤ row.id) :
    Tables.Sound (r :: claimed) { t with pending := some r } := by
  have hpd : ∀ s ∈ claimed, s.last ≤ t.exported := fun s mem =>
    (hso.settled s mem).resolve_right (by simp [hil])
  -- no claimed range reaches the new one
  have hfr : ∀ s ∈ claimed, ∀ id, s.Covers id → ¬r.Covers id := by
    intro s mem id old new
    have hbe :=
      le_trans (WithBot.coe_le_coe.mpr old.2) (hpd s mem)
    exact absurd (WithBot.coe_le_coe.mpr new.1) (not_le_of_gt (lt_of_le_of_lt hbe hab))
  refine { hso with
    settled := ?_, pending := ?_, reached := ?_, apart := ?_, known := ?_, covered := ?_
    objects := fun o mem => mem_cons_of_mem _ (hso.objects o mem), written := ?_ }
  · exact forall_mem_cons.mpr ⟨.inr rfl, fun s old => .inl (hpd s old)⟩
  · intro s hs
    cases hs
    exact ⟨mem_cons_self, hab⟩
  · exact hso.reached.imp_right fun ⟨s, mem, hlt⟩ => ⟨s, mem_cons_of_mem _ mem, hlt⟩
  · refine forall_mem_cons.mpr ⟨forall_mem_cons.mpr ⟨fun _ _ _ => rfl, ?_⟩, fun s old => ?_⟩
    · exact fun s old id hh ht => absurd hh (hfr s old id ht)
    · exact forall_mem_cons.mpr
        ⟨fun id hh ht => absurd ht (hfr s old id hh), hso.apart s old⟩
  · exact forall_mem_cons.mpr ⟨⟨hor, ends⟩, hso.known⟩
  · intro row mem hwi
    by_cases hbe : ((row.id : StreamID) : WithBot StreamID) ≤ t.exported
    · obtain ⟨s, old, hi⟩ := hso.covered row mem (.inl hbe)
      exact ⟨s, mem_cons_of_mem _ old, hi⟩
    rcases hwi with hwi | ⟨s, hs, hwi⟩
    · exact absurd hwi hbe
    · cases hs
      exact ⟨_, mem_cons_self, hcov row mem (lt_of_not_ge hbe), hwi⟩
  · refine forall_mem_cons.mpr ⟨fun hwi => ?_, hso.written⟩
    have hby := lt_of_lt_of_le hab (WithBot.coe_le_coe.mpr hor)
    exact absurd hwi (not_le_of_gt hby)

lemma Tables.Sound.claim (bt : Nat) :
    Grows t (claimRange bt t).1 ∧ ∃ claimed', claimed ⊆ claimed' ∧
      (claimRange bt t).1.Sound claimed' ∧
      ∀ r, (claimRange bt t).2 = some r → r ∈ claimed' := by
  unfold claimRange
  split
  next r hp =>
    refine ⟨.refl t, claimed, List.Subset.refl _, hso, fun s hs => ?_⟩
    cases hs
    exact (hso.pending _ hp).1
  next hil =>
    simp only
    split
    next h1 hlt hd tail =>
      obtain ⟨hab, hor, las, hcov⟩ := nextRange hso hd tail
      refine ⟨{ Grows.refl t with }, ⟨h1.id, hlt.id⟩ :: claimed, subset_cons_self _ _, ?_,
        fun s hs => ?_⟩
      · exact hso.setPending hil hab hor ⟨hlt, las, rfl⟩ hcov
      · cases hs
        exact mem_cons_self
    · exact ⟨.refl t, claimed, List.Subset.refl _, hso, fun s hs => by contradiction⟩

lemma Tables.Sound.put {body} (cl : (Call.put r body).Sound claimed t) :
    Grows t { t with objects := (r, body) :: t.objects } ∧
      ({ t with objects := (r, body) :: t.objects } : Tables).Sound claimed := by
  refine ⟨{ Grows.refl t with objects := subset_cons_self _ _ }, { hso with
    objects := forall_mem_cons.mpr ⟨cl.1, hso.objects⟩, written := fun s mem hwi => ?_
    bodies := forall_mem_cons.mpr ⟨cl.2, hso.bodies⟩ }⟩
  obtain ⟨bod', written⟩ := hso.written s mem hwi
  exact ⟨bod', mem_cons_of_mem _ written⟩

lemma Tables.Sound.advance (cl : (Call.advance r).Sound claimed t) :
    Grows t (advancePosition t r) ∧ (advancePosition t r).Sound claimed := by
  unfold advancePosition
  split
  next pending =>
    obtain ⟨mem, hbe⟩ := hso.pending r pending
    have step : t.exported < r.last :=
      lt_of_lt_of_le hbe (WithBot.coe_le_coe.mpr (hso.known r mem).1)
    refine ⟨{ Grows.refl t with exported := le_of_lt step }, ?_⟩
    refine
      { hso with
        behind := fun row mem hab => hso.behind row mem (lt_trans step hab)
        settled := ?_
        pending := fun s same => by contradiction
        reached := .inr ⟨r, mem, rfl⟩
        covered := ?_
        written := ?_ }
    · intro s mb
      rcases hso.settled s mb with hpd | same
      · exact .inl (le_trans hpd (le_of_lt step))
      · cases pending.symm.trans same
        exact .inl le_rfl
    · intro row mb hwi
      rcases hwi with hwi | ⟨s, same, -⟩
      · exact hso.covered row mb (.inr ⟨r, pending, WithBot.coe_le_coe.mp hwi⟩)
      · contradiction
    · intro s mb hwi
      rcases hso.settled s mb with hpd | same
      · exact hso.written s mb hpd
      · cases pending.symm.trans same
        exact cl.2
  · exact ⟨.refl t, hso⟩

lemma Tables.Sound.remove {hex : WithBot StreamID}
    (cl : hex ≤ t.exported) (co : Int) :
    Grows t (removeRows t hex co) ∧ (removeRows t hex co).Sound claimed := by
  have hg : Grows t (removeRows t hex co) :=
    { Grows.refl t with removed := fun _ _ mem => (mem_filter.mp mem).1 }
  refine ⟨hg, { hso with stored := ?_, behind := ?_, bodies := ?_ }⟩
  · exact filter_sublist.trans hso.stored
  · intro row mem hab
    refine mem_filter.mpr ⟨hso.behind row mem hab, ?_⟩
    have kp : ¬((row.id : StreamID) : WithBot StreamID) ≤ hex := fun hwi =>
      absurd hab (not_lt_of_ge (le_trans hwi cl))
    simp [kp]
  · intro o mem
    exact hso.kept hg (hso.objects o mem) (hso.bodies o mem)

end

lemma request_sound (a : Archive) (hso : t.Sound claimed) (cl : c.Sound claimed t) (answer) :
    Grows t (a.request t c answer).1 ∧ ∃ hcl', claimed ⊆ hcl' ∧
      (a.request t c answer).1.Sound hcl' ∧
      (a.request t c answer).2.Sound hcl' (a.request t c answer).1 := by
  unfold request
  by_cases fails : answer.fails = true
  · rw [if_pos fails]
    exact ⟨.refl t, claimed, List.Subset.refl _, hso, trivial⟩
  rw [if_neg fails]
  cases c with
  | claim =>
    obtain ⟨hg, hcl', more, hso', mem⟩ := hso.claim a.batch
    simp only
    split
    next t' r res =>
      rw [res] at hg hso' mem
      exact ⟨hg, hcl', more, hso', mem r rfl⟩
    next t' res =>
      rw [res] at hg hso'
      exact ⟨hg, hcl', more, hso', trivial⟩
  | read r =>
    refine ⟨.refl t, claimed, List.Subset.refl _, hso, ?_⟩
    simp only
    split
    · trivial
    refine ⟨cl, fun row _ hcov => ?_⟩
    by_cases ht : row ∈ t.rows
    · exact .inl (mem_filter.mpr ⟨ht, by simpa using hcov⟩)
    · exact .inr ht
  | put r bd =>
    obtain ⟨hg, hso'⟩ := hso.put cl
    exact ⟨hg, claimed, List.Subset.refl _, hso', cl.1, bd, mem_cons_self⟩
  | advance r =>
    obtain ⟨hg, hso'⟩ := hso.advance cl
    exact ⟨hg, claimed, List.Subset.refl _, hso', trivial⟩
  | position =>
    refine ⟨.refl t, claimed, List.Subset.refl _, hso, ?_⟩
    simp only
    split
    · trivial
    · exact le_refl t.exported
  | remove hex =>
    obtain ⟨hg, hso'⟩ := hso.remove cl
      (a.monthsBefore answer.now (max answer.effectiveMonths minRetentionMonths))
    exact ⟨hg, claimed, List.Subset.refl _, hso', trivial⟩
  | ended => exact ⟨.refl t, claimed, List.Subset.refl _, hso, trivial⟩

end

def SoundWorld (w : World Tables Call) : Prop :=
  ∃ claimed, w.shared.Sound claimed ∧ ∀ c ∈ w.calls, c.Sound claimed w.shared

lemma soundWorld_step (a : Archive) {w : World Tables Call} (hso : SoundWorld w) (x) :
    Grows w.shared (step a.system w x).shared ∧ SoundWorld (step a.system w x) := by
  obtain ⟨claimed, tbs, cs⟩ := hso
  cases x with
  | start op =>
    refine ⟨.refl _, claimed, tbs, fun c mem => ?_⟩
    rcases mem_append.mp mem with old | new
    · exact cs c old
    rw [mem_singleton.mp new]
    cases so : op.store with
    | true | false => simp [system, so, Call.Sound]
  | outside row =>
    have hg := insertRow_grows w.shared row
    exact ⟨hg, claimed, tbs.insert row,
      fun c mem => (cs c mem).mono tbs hg (List.Subset.refl _)⟩
  | advance i an =>
    simp only [step]
    cases hf : w.calls[i]? with
    | none => exact ⟨.refl _, claimed, tbs, cs⟩
    | some c =>
      obtain ⟨hg, hcl', more, hso', cal'⟩ :=
        request_sound a tbs (cs c (mem_of_getElem? hf)) an
      refine ⟨hg, hcl', hso', fun d mem => ?_⟩
      rcases mem_or_eq_of_mem_set mem with old | rfl
      · exact (cs d old).mono tbs hg more
      · exact cal'

lemma soundWorld_run (a : Archive) (ss) : SoundWorld (a.runFrom ss) := by
  induction ss using reverseRecOn with
  | nil =>
    refine ⟨[], ?_, by simp [runFrom, run]⟩
    constructor <;> simp [runFrom, run]
  | append_singleton ss x ih =>
    rw [runFrom, run_append_singleton]
    exact (soundWorld_step a ih x).2

section
variable {t : Tables}

lemma mem_of_body (hf : t.body folder (objectKey folder r) = some body) :
    (r, body) ∈ t.objects := by
  obtain ⟨o, h1, rfl⟩ := map_eq_some_iff.mp hf
  have name := List.find?_some h1
  obtain rfl : o.1 = r := objectKey_injective folder (by simpa using name)
  exact mem_of_find?_eq_some h1

lemma body_put (r s body) :
    ({ t with objects := (r, body) :: t.objects } : Tables).body folder (objectKey folder s) =
      if s = r then some body else t.body folder (objectKey folder s) := by
  by_cases hs : s = r
  · simp [Tables.body, hs]
  have ho : objectKey folder r ≠ objectKey folder s := fun h =>
    hs (objectKey_injective folder h).symm
  simp [Tables.body, hs, ho]

lemma Contained.of_same (hcn : Contained folder t)
    (hex : t.exported ≤ t'.exported) (hins : t'.inserted = t.inserted)
    (rw0 : t'.rows = t.rows) (obs : t'.objects = t.objects) : Contained folder t' := by
  intro row mem hgn
  rw [hins] at mem
  rw [rw0] at hgn
  obtain ⟨r, bd, hpd, hcov, hf, hi⟩ := hcn row mem hgn
  refine ⟨r, bd, le_trans hpd hex, hcov, ?_, hi⟩
  rwa [Tables.body, obs]

lemma contained_insert (hcn : Contained folder t) (row) :
    Contained folder (insertRow t row) := by
  unfold insertRow
  split
  · intro x mem hgn
    rcases mem_append.mp mem with old | new
    · exact hcn x old fun ht => hgn (mem_append_left _ ht)
    · exact absurd (mem_append_right _ new) hgn
  · exact hcn

lemma contained_put (hso : t.Sound claimed) (hcn : Contained folder t)
    (claim : r ∈ claimed) (body) :
    Contained folder { t with objects := (r, body) :: t.objects } ↔
      ∀ row ∈ t.inserted, row ∉ t.rows → r.Covers row.id → row ∈ body := by
  constructor
  · intro ha row mem hgn hcov
    obtain ⟨s, bod', -, cov', hf, hi⟩ := ha row mem hgn
    rw [body_put] at hf
    split at hf
    · cases hf
      exact hi
    next ho =>
      have cla' := hso.objects _ (mem_of_body hf)
      exact absurd (hso.apart s cla' r claim row.id cov' hcov) ho
  · intro hwh row mem hgn
    obtain ⟨s, bod', hpd, hcov, hf, hi⟩ := hcn row mem hgn
    by_cases hs : s = r
    · subst hs
      exact ⟨s, body, hpd, hcov, by rw [body_put, if_pos rfl], hwh row mem hgn hcov⟩
    · exact ⟨s, bod', hpd, hcov, by rw [body_put, if_neg hs, hf], hi⟩

lemma contained_remove (hso : t.Sound claimed) (hcn : Contained folder t)
    (cl : exported ≤ t.exported) (co : Int) :
    Contained folder (removeRows t exported co) := by
  intro row mem hgn
  by_cases ht : row ∈ t.rows
  · -- the row is removed by this prune, so it lies up to the position
    have hpd : ((row.id : StreamID) : WithBot StreamID) ≤ t.exported := by
      by_contra above
      refine hgn (mem_filter.mpr ⟨ht, ?_⟩)
      have kp : ¬((row.id : StreamID) : WithBot StreamID) ≤ exported := fun hwi =>
        above (le_trans hwi cl)
      simp [kp]
    obtain ⟨r, claim, hcov⟩ := hso.covered row mem (.inl hpd)
    have hse : r.last ≤ t.exported := by
      refine (hso.settled r claim).resolve_right fun hp => ?_
      have hbe := lt_of_le_of_lt hpd (hso.pending r hp).2
      exact absurd (WithBot.coe_lt_coe.mp hbe) (not_lt_of_ge hcov.1)
    obtain ⟨bd, hw⟩ := hso.written r claim hse
    obtain ⟨bod', hf⟩ : ∃ bod', t.body folder (objectKey folder r) = some bod' := by
      rw [← isSome_iff_exists, Tables.body, isSome_map, List.find?_isSome]
      exact ⟨_, hw, by simp⟩
    have hi := hso.bodies _ (mem_of_body hf) row mem hcov
    exact ⟨r, bod', hse, hcov, hf, hi.resolve_right (not_not_intro ht)⟩
  · exact hcn row mem ht

lemma claimRange_frame (bt : Nat) (t) :
    (claimRange bt t).1.inserted = t.inserted ∧ (claimRange bt t).1.rows = t.rows ∧
      (claimRange bt t).1.objects = t.objects := by
  unfold claimRange
  split
  · exact ⟨rfl, rfl, rfl⟩
  simp only
  split <;> exact ⟨rfl, rfl, rfl⟩

lemma contained_request (a : Archive) (hso : t.Sound claimed) (hcn : Contained folder t)
    (cl : c.Sound claimed t) (answer) (ho : ∀ r bd, c ≠ .put r bd) :
    Contained folder (a.request t c answer).1 := by
  unfold request
  by_cases fails : answer.fails = true
  · rwa [if_pos fails]
  rw [if_neg fails]
  cases c with
  | put r bd => exact absurd rfl (ho r bd)
  | remove hex => exact contained_remove hso hcn cl _
  | claim =>
    obtain ⟨hins, rw0, obs⟩ := claimRange_frame a.batch t
    have kp := hcn.of_same (hso.claim a.batch).1.exported hins rw0 obs
    simp only
    split
    next res =>
      rwa [res] at kp
    next res =>
      rwa [res] at kp
  | advance r =>
    refine hcn.of_same (hso.advance cl).1.exported ?_ ?_ ?_
    all_goals
      simp only [advancePosition]
      split <;> rfl
  | read r | position | ended => exact hcn

end

lemma contained_step (a : Archive)
    (hso : SoundWorld w) (hcn : Contained folder w.shared) (x) :
    Contained folder (step a.system w x).shared ↔ ¬Truncates w x := by
  obtain ⟨claimed, tbs, cs⟩ := hso
  have har (kp : Contained folder (step a.system w x).shared)
      (ho : ∀ i an r bd, x = .advance i an → an.fails = false →
        w.calls[i]? ≠ some (.put r bd)) :
      Contained folder (step a.system w x).shared ↔ ¬Truncates w x := by
    refine iff_of_true kp ?_
    rintro ⟨i, an, r, bd, hs, wor, cl, -⟩
    exact ho i an r bd hs wor cl
  cases x with
  | start op => exact har hcn (by simp)
  | outside row => exact har (contained_insert hcn row) (by simp)
  | advance i an =>
    cases hf : w.calls[i]? with
    | none =>
      refine har (by simpa [step, hf] using hcn) ?_
      rintro j ans' r bd hs -
      cases hs
      simp [hf]
    | some c =>
      have cl := cs c (mem_of_getElem? hf)
      have nx :
          (step a.system w (.advance i an)).shared = (a.request w.shared c an).1 := by
        simp [step, hf, system]
      by_cases write : an.fails = false ∧ ∃ r bd, c = .put r bd
      · obtain ⟨wor, r, bd, rfl⟩ := write
        have hw : (a.request w.shared (.put r bd) an).1 =
            { w.shared with objects := (r, bd) :: w.shared.objects } := by
          simp [request, wor]
        rw [nx, hw, contained_put tbs hcn cl.1]
        constructor
        · rintro hwh ⟨j, ans', r', bod', hs, -, cal', row, mem, hgn, hcov, hmis⟩
          cases hs
          cases hf.symm.trans cal'
          exact hmis (hwh row mem hgn hcov)
        · intro hso row mem hgn hcov
          by_contra hmis
          exact hso ⟨i, an, r, bd, rfl, wor, hf, row, mem, hgn, hcov, hmis⟩
      · refine har ?_ ?_
        · rw [nx]
          by_cases wor : an.fails = false
          · exact contained_request a tbs hcn cl an
              fun r bd hs => write ⟨wor, r, bd, hs⟩
          · simpa [request, wor] using hcn
        · rintro j ans' r bd hs wor cal'
          cases hs
          exact write ⟨wor, r, bd, some.inj (hf.symm.trans cal')⟩

/-- The removed rows are in the bucket, ranges under different names are disjoint and the position
only advances, exactly if no run writes a range from a read that came after a row of it was
removed. -/
theorem retainsHistory_iff (a : Archive) (folder : String) (steps : List ArchiveStep) :
    ((∀ before after, steps = before ++ after → Contained folder (a.runFrom before).shared ∧
        Apart folder (a.runFrom before).shared) ∧ ∀ before x after, steps = before ++ x :: after →
        (a.runFrom before).shared.exported ≤ (a.runFrom (before ++ [x])).shared.exported) ↔
      ∀ before x after, steps = before ++ x :: after → ¬Truncates (a.runFrom before) x := by
  have hkp (w : World Tables Call) (x : ArchiveStep)
      (hk : SoundWorld w ∧ Contained folder w.shared) :
      (SoundWorld (step a.system w x) ∧ Contained folder (step a.system w x).shared) ↔
        ¬Truncates w x := by
    rw [← contained_step a hk.1 hk.2 x]
    exact and_iff_right (soundWorld_step a hk.1 x).2
  have hsf := safe_iff (P := fun w => SoundWorld w ∧ Contained folder w.shared)
    ⟨soundWorld_run a [], by simp [runFrom, run, Contained]⟩ hkp steps
  constructor
  · rintro ⟨kp, -⟩
    exact hsf.mp fun before after split => ⟨soundWorld_run a before, (kp before after split).1⟩
  intro hwh
  refine ⟨fun before after split => ⟨(hsf.mpr hwh before after split).2, ?_⟩, ?_⟩
  · obtain ⟨claimed, tbs, -⟩ := soundWorld_run a before
    intro o mem o' mem' names id both
    exact names (by
      rw [tbs.apart o.1 (tbs.objects o mem) o'.1 (tbs.objects o' mem') id both.1 both.2])
  · intro before x after split
    rw [runFrom, runFrom, run_append_singleton]
    exact (soundWorld_step a (soundWorld_run a before) x).1.exported

def monthly : Archive where
  batch := 1000
  monthsBefore now months := now - 30 * months

def oldRow : Row := ⟨toLex (1, 0), "MissionStarted", "", 0⟩

def newRow : Row := ⟨toLex (2, 0), "MissionEnded", "", 1000⟩

/-- The second daemon exports and prunes before the first one reads the range. -/
def staleWriter : List ArchiveStep :=
  [.outside oldRow, .outside newRow, .start ⟨true⟩, .start ⟨true⟩, .advance 0 {}, .advance 1 {},
   .advance 1 {}, .advance 1 {}, .advance 1 {}, .advance 1 {}, .advance 1 {},
   .advance 1 { now := 500 }, .advance 0 {}, .advance 0 {}]

theorem staleWriter_truncates :
    ¬Contained "audit/acme/timeline/" (monthly.runFrom staleWriter).shared := by
  have st : (monthly.runFrom staleWriter).shared =
      { rows := [newRow]
        exported := newRow.id
        pending := none
        objects := [(⟨oldRow.id, newRow.id⟩, [newRow]), (⟨oldRow.id, newRow.id⟩, [oldRow, newRow])]
        inserted := [oldRow, newRow] } := rfl
  rw [st]
  intro hcn
  obtain ⟨r, bd, -, -, hf, hi⟩ := hcn oldRow (by decide) (by decide)
  obtain rfl : r = ⟨oldRow.id, newRow.id⟩ := by
    have mem := mem_of_body hf
    simp only [mem_cons, Prod.mk.injEq, not_mem_nil, or_false] at mem
    exact mem.elim (·.1) (·.1)
  obtain rfl : [newRow] = bd := by simpa [Tables.body] using hf
  exact absurd hi (by decide)

end Gibson.TimelineArchive
