import Gibson.Brain.Engine

/-! Where the events that an Engine folded come from: the queue, one at a time, or a System, whose
list is folded before anything else is. -/

namespace Gibson.Brain

open List

inductive Origin where
  | submitted
  | system (sys : World → List Event)

/-- Events that are appended at once. -/
structure Batch where
  origin : Origin
  events : List Event

/-- One submitted event, or what a System says, cut short where an append failed. -/
def Batch.Follows (b : Batch) (w : World) : Prop :=
  match b.origin with
  | .submitted => ∃ ev, b.events = [ev]
  | .system sys => b.events <+: sys w

def Batch.From (systems : List (World → List Event)) (sent : Event → Prop) (b : Batch) : Prop :=
  match b.origin with
  | .submitted => ∀ ev ∈ b.events, sent ev
  | .system sys => sys ∈ systems

def eventsOf (batches : List Batch) : List Event := batches.flatMap Batch.events

def Provenance (env : Env) (w : World) (batches : List Batch) : Prop :=
  ∀ pre b, pre ++ [b] <+: batches → b.Follows (reduceAll env w (eventsOf pre))

lemma eventsOf_append (xs ys) : eventsOf (xs ++ ys) = eventsOf xs ++ eventsOf ys :=
  flatMap_append ..

@[simp] lemma eventsOf_singleton (b) : eventsOf [b] = b.events := by
  simp [eventsOf]

lemma Provenance.append_singleton
    (h : Provenance env w batches) (nx : b.Follows (reduceAll env w (eventsOf batches))) :
    Provenance env w (batches ++ [b]) := by
  intro pre x cut
  rcases prefix_concat_iff.mp cut with hwh | earlier
  · obtain ⟨rfl, hs⟩ := append_inj' hwh rfl
    obtain rfl := singleton_inj.mp hs
    exact nx
  · exact h pre x earlier

namespace Engine

variable {ι : Type} {S : TimelineStore ι} {env : Env} {tenant : String} {e : Engine S}
  {systems : List (World → List Event)} {sent : Event → Prop}

/-- What was folded splits into batches, the queue holds what was sent, and the World is the fold
of what was folded. -/
structure Traced (env : Env) (tenant : String) (systems : List (World → List Event))
    (sent : Event → Prop) (e : Engine S) : Prop where
  world : e.world = replay env tenant e.applied
  queued : ∀ ev ∈ e.intake, sent ev
  batches : ∃ batches, eventsOf batches = e.applied ∧
    Provenance env (newWorld tenant) batches ∧ ∀ b ∈ batches, b.From systems sent

/-- The engine after a fold. -/
structure Folded (env : Env) (events : List Event) (e e' : Engine S) : Prop where
  world : e'.world = reduceAll env e.world events
  applied : e'.applied = e.applied ++ events

lemma Folded.trans {e₁ e₂ e₃ : Engine S} (h : Folded env xs e₁ e₂)
    (h' : Folded env ys e₂ e₃) : Folded env (xs ++ ys) e₁ e₃ where
  world := by rw [h'.world, h.world, reduceAll_append]
  applied := by rw [h'.applied, h.applied, append_assoc]

lemma maybeSnapshot_fields :
    e.maybeSnapshot.world = e.world ∧ e.maybeSnapshot.applied = e.applied ∧
      e.maybeSnapshot.intake = e.intake := by
  unfold maybeSnapshot
  simp only
  split
  · exact ⟨rfl, rfl, rfl⟩
  · split <;> exact ⟨rfl, rfl, rfl⟩

lemma publish_fields (vd ev) :
    (e.publish vd ev).world = e.world ∧ (e.publish vd ev).applied = e.applied ∧
      (e.publish vd ev).intake = e.intake := by
  cases vd <;> exact ⟨rfl, rfl, rfl⟩

lemma apply_folded (env) (e : Engine S) (ev) :
    (e.apply env ev).1.intake = e.intake ∧
      Folded env (if (e.apply env ev).2 then [ev] else []) e (e.apply env ev).1 := by
  unfold apply
  cases rp : e.appendDurable ev with
  | mk a res =>
    have fl : a.world = e.world ∧ a.applied = e.applied ∧ a.intake = e.intake := by
      obtain rfl : (e.appendDurable ev).1 = a := congrArg Prod.fst rp
      exact ⟨rfl, rfl, rfl⟩
    cases res with
    | error err => exact ⟨fl.2.2, ⟨fl.1, by simpa [stop] using fl.2.1⟩⟩
    | ok seq =>
      simp only [fold]
      rw [(publish_fields _ ev).2.2]
      split
      · exact ⟨maybeSnapshot_fields.2.2.trans fl.2.2,
          ⟨by rw [(publish_fields _ ev).1, maybeSnapshot_fields.1, fl.1]; rfl,
            by rw [(publish_fields _ ev).2.1, maybeSnapshot_fields.2.1, fl.2.1]; rfl⟩⟩
      · exact ⟨fl.2.2, ⟨by rw [(publish_fields _ ev).1, fl.1]; rfl,
            by rw [(publish_fields _ ev).2.1, fl.2.1]; rfl⟩⟩

lemma applyAll_folded (env evs) (e : Engine S) :
    (applyAll env evs e).1.intake = e.intake ∧
      ∃ hdn, hdn <+: evs ∧ Folded env hdn e (applyAll env evs e).1 := by
  induction evs generalizing e with
  | nil => exact ⟨rfl, [], nil_prefix, ⟨rfl, by simp [applyAll]⟩⟩
  | cons ev rs ih =>
    have h1 := apply_folded env e ev
    unfold applyAll
    cases hap : e.apply env ev with
    | mk a ok =>
      rw [hap] at h1
      cases ok with
      | false => exact ⟨h1.1, [], nil_prefix, h1.2⟩
      | true =>
        obtain ⟨qu, hdn, cut, hfo⟩ := ih a
        exact ⟨qu.trans h1.1, ev :: hdn, cons_prefix_cons.mpr ⟨rfl, cut⟩,
          h1.2.trans hfo⟩

lemma Traced.of_batch (h : Traced env tenant systems sent e) {b : Batch}
    (hfol : b.Follows e.world) (og : b.From systems sent)
    (hfo : Folded env b.events e e') (hqu : ∀ ev ∈ e'.intake, sent ev) :
    Traced env tenant systems sent e' := by
  obtain ⟨bat, evs, prov, ogs⟩ := h.batches
  refine ⟨?_, hqu, bat ++ [b], ?_, prov.append_singleton ?_, ?_⟩
  · rw [hfo.world, hfo.applied, h.world, replay, replay, reduceAll_append]
  · rw [eventsOf_append, evs, eventsOf_singleton, hfo.applied]
  · rw [evs]
    exact (show e.world = reduceAll env (newWorld tenant) e.applied from h.world) ▸ hfol
  exact forall_mem_append.mpr ⟨ogs, forall_mem_singleton.mpr og⟩

lemma traced_drain (evs) (h : Traced env tenant systems sent e)
    (hk : ∀ ev ∈ evs, sent ev) : Traced env tenant systems sent (drain env evs e).1 := by
  induction evs generalizing e with
  | nil => exact h
  | cons ev rs ih =>
    have hla : ∀ ev ∈ rs, sent ev := fun x mem => hk x (mem_cons_of_mem _ mem)
    have htk : Traced env tenant systems sent { e with intake := rs } :=
      ⟨h.world, hla, h.batches⟩
    obtain ⟨qu, hfo⟩ := apply_folded env ({ e with intake := rs } : Engine S) ev
    unfold drain
    cases hap : ({ e with intake := rs } : Engine S).apply env ev with
    | mk a ok =>
      rw [hap] at qu hfo
      have hqu : ∀ ev ∈ a.intake, sent ev := by
        rwa [qu]
      cases ok with
      | false =>
        obtain ⟨bat, evs, rs⟩ := h.batches
        exact ⟨by rw [hfo.world, hfo.applied]; simpa using h.world, hqu, bat,
          by rw [hfo.applied]; simpa using evs, rs⟩
      | true =>
        refine ih (htk.of_batch (b := ⟨.submitted, [ev]⟩) ⟨ev, rfl⟩ ?_ hfo hqu) hla
        intro x mem
        obtain rfl := mem_singleton.mp mem
        exact hk x mem_cons_self

lemma traced_runSystems (todo : List (World → List Event)) (some : ∀ sys ∈ todo, sys ∈ systems)
    (h : Traced env tenant systems sent e) :
    Traced env tenant systems sent (runSystems env todo e).1 := by
  induction todo generalizing e with
  | nil => exact h
  | cons sys rs ih =>
    unfold runSystems
    split
    · exact h
    obtain ⟨qu, hdn, cut, hfo⟩ := applyAll_folded env (sys e.world) e
    cases hap : applyAll env (sys e.world) e with
    | mk a res =>
      obtain ⟨n, ok⟩ := res
      rw [hap] at qu hfo
      have nx :=
        h.of_batch (b := ⟨.system sys, hdn⟩) cut (some sys mem_cons_self) hfo
          (by rw [qu]; exact h.queued)
      cases ok with
      | false => exact nx
      | true => exact ih (fun sys mem => some sys (mem_cons_of_mem _ mem)) nx

lemma traced_sweep (k : Nat) (h : Traced env tenant systems sent e) :
    Traced env tenant systems sent (sweep env systems k e).1 := by
  induction k generalizing e with
  | zero => exact h
  | succ k ih =>
    unfold sweep
    split
    · exact h
    have ran := traced_runSystems systems (fun _ mem => mem) (traced_drain e.intake h h.queued)
    simp only
    split
    · exact ran
    · exact ih ran

lemma traced_run (env) (S : TimelineStore ι) (tenant) (hcad : Int)
    (systems : List (World → List Event)) (calls) :
    Traced env tenant systems (fun ev => .submit ev ∈ calls)
      ((Engine.new S tenant hcad).run env systems calls) := by
  refine List.foldlRecOn calls _ ⟨rfl, by simp [Engine.new], [], rfl, by simp [Provenance], by simp⟩
    fun e h c mem => ?_
  cases c with
  | submit ev =>
    rw [call, submit]
    split
    · exact h
    split
    · exact h
    exact ⟨h.world, forall_mem_append.mpr ⟨h.queued, forall_mem_singleton.mpr mem⟩, h.batches⟩
  | tick => exact traced_sweep maxSweeps h

end Engine
end Gibson.Brain
