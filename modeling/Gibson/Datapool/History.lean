import Gibson.Lib.Prefix
import Gibson.Datapool.Timeline

/-! What a load of the history returns while trims and appends go on. The table holds a beginning of
everything that was appended and the stream an end of it. -/

namespace Gibson.Datapool

open List Cursor Rows LoadHistory TimelineStore Prod

variable {E : Type} {L : List (StreamID × E)}

/-- Table and stream cover the log. -/
structure Kept (L : List (StreamID × E)) (st : TimelineStore E) : Prop where
  table : st.history = L.take st.history.length
  stream : ∃ m ≤ st.history.length, st.stream = L.drop m

variable {st : TimelineStore E}

lemma Kept.length_le (kept : Kept L st) : st.history.length ≤ L.length := by
  have sz := congrArg length kept.table
  rw [length_take] at sz
  omega

lemma Kept.append (kept : Kept L st) (new : st.appendedLast key = false)
    (id ev) : Kept (L ++ [(id, ev)]) (st.appendOnce key id ev) := by
  obtain ⟨m, le, sm⟩ := kept.stream
  have hbd := kept.length_le
  rw [appendOnce, new]
  refine ⟨?_, m, le, ?_⟩
  · exact kept.table.trans (take_append_of_le_length hbd).symm
  · change st.stream ++ [(id, ev)] = _
    rw [sm, drop_append_of_le_length (by omega)]

lemma not_mem_table_iff (kept : Kept L st) (hh : At L c st.history.length) (mem : x ∈ L) :
    x.1 ∉ st.history.map fst ↔ Beyond c x.1 := by
  have hi {y} (hl : y ∈ st.history) : ¬ Beyond c y.1 := by
    rw [kept.table] at hl
    obtain ⟨i, en⟩ := getElem?_of_mem hl
    rw [getElem?_take] at en
    split at en
    · rw [hh.beyond_iff en]
      omega
    · exact absurd en (by simp)
  constructor
  · intro hab
    by_contra early
    obtain ⟨i, en⟩ := getElem?_of_mem mem
    rw [hh.beyond_iff en, Nat.not_le] at early
    refine hab (mem_map_of_mem (f := fst) ?_)
    rw [kept.table]
    refine mem_of_getElem? (i := i) ?_
    rw [getElem?_take, if_pos early, en]
  · rintro hby hl
    obtain ⟨y, hl, hs⟩ := mem_map.mp hl
    exact hi hl (hs ▸ hby)

variable {r : Nat}

lemma insertHistory_history (sorted : Ascending L) (kept : Kept L st)
    (s0 : p ≤ st.history.length) :
    (st.insertHistory ((L.take r).drop p)).history = L.take (max st.history.length r) := by
  obtain ⟨c, hh⟩ := exists_cursor sorted kept.length_le
  have hab : ((L.take r).drop p).filter (fun x => x.1 ∉ st.history.map fst) =
      ((L.take r).drop p).filter fun x => Beyond c x.1 := by
    refine filter_congr fun x mem => ?_
    rw [decide_eq_decide]
    exact not_mem_table_iff kept hh (mem_of_mem_take (mem_of_mem_drop mem))
  rw [insertHistory]
  simp only [hab, (hh.filter_part p r).1, Nat.max_eq_right s0]
  rcases Nat.le_total r st.history.length with hi | past
  · rw [Nat.max_eq_left hi, drop_eq_nil_of_le (by rw [length_take]; omega), append_nil]
    exact kept.table
  have h1 : L.take st.history.length = (L.take r).take st.history.length := by
    rw [take_take, Nat.min_eq_left past]
  rw [Nat.max_eq_right past]
  conv_lhs => rw [kept.table, length_take, Nat.min_eq_left kept.length_le, h1]
  exact take_append_drop _ _

lemma Kept.insertHistory (sorted : Ascending L) (kept : Kept L st)
    (s0 : p ≤ st.history.length) (hbd : r ≤ L.length) :
    Kept L (st.insertHistory ((L.take r).drop p)) ∧
      (st.insertHistory ((L.take r).drop p)).history.length = max st.history.length r := by
  have tab := insertHistory_history sorted kept (r := r) s0
  have le := kept.length_le
  have sz : (st.insertHistory ((L.take r).drop p)).history.length = max st.history.length r := by
    rw [tab, length_take]
    omega
  obtain ⟨m, hbe, sm⟩ := kept.stream
  exact ⟨⟨by rw [sz]; exact tab, m, by omega, sm⟩, sz⟩

variable {handle : StreamID}
variable {j m : Nat}

lemma trimMinID_stream (hh : At L (some handle) j) (sm : st.stream = L.drop m) :
    (st.trimMinID (streamIDNext handle)).stream = L.drop (max m j) := by
  rw [← hh.filter_drop, ← sm]
  refine filter_congr fun x _ => decide_eq_decide.mpr ?_
  change _ ↔ handle < x.1
  rw [Prod.Lex.le_iff, Prod.Lex.lt_iff]
  exact or_congr_right (and_congr_right fun _ => Nat.succ_le_iff)

variable {cursor : Option StreamID} {k : Nat}

lemma rangeTo_eq (sm : st.stream = L.drop m) (hh : At L cursor k)
    (ht : At L (some handle) j) :
    st.rangeTo cursor handle = (L.take (min j (max m k + replayBatchSize))).drop (max m k) := by
  have split : st.stream.filter (fun x => Beyond cursor x.1 && x.1 ≤ handle) =
      (st.stream.filter fun x => Beyond cursor x.1).filter
        fun x => !decide (Beyond (some handle) x.1) := by
    rw [filter_filter]
    refine filter_congr fun x _ => ?_
    rw [Bool.and_comm, ← decide_not]
    congr 1
    exact decide_eq_decide.mpr not_lt.symm
  have part := (ht.filter_part (max m k) L.length).2
  rw [take_length, Nat.min_eq_left ht.bound] at part
  rw [rangeTo, split, sm, hh.filter_drop, part, take_drop, take_take, Nat.min_comm]

lemma rangeTail_eq (sm : st.stream = L.drop m) (hbe : m ≤ k) (hh : At L cursor k) :
    st.rangeTail cursor = (L.take (min L.length (k + replayBatchSize))).drop k := by
  rw [rangeTail, sm, hh.filter_drop, Nat.max_eq_right hbe, take_drop,
    Nat.min_comm, ← take_eq_take_min]

lemma historyPage_eq (sorted : Ascending L) (kept : Kept L st) {after} (hh : At L after k) :
    st.historyPage after = (L.take (min st.history.length (k + replayBatchSize))).drop k := by
  have inO : sortBy fst st.history = L.take st.history.length := by
    conv_rhs => rw [← kept.table]
    refine sortBy_of_pairwise ?_
    rw [kept.table]
    exact (sorted.sublist (take_sublist _ _)).imp le_of_lt
  have part := (hh.filter_part 0 st.history.length).1
  rw [drop_zero, Nat.max_eq_right (Nat.zero_le k)] at part
  rw [historyPage, inO, part, take_drop, take_take, Nat.min_comm]

def TrimPhase.Sound (L : List (StreamID × E)) (n j : Nat) : TrimPhase E → Prop
  | .scan cursor => ∃ k ≤ n, At L cursor k
  | .insert msgs => ∃ p r, p ≤ n ∧ p < r ∧ r ≤ L.length ∧ msgs = (L.take r).drop p ∧
      (msgs.length < replayBatchSize → j ≤ r)
  | .trim => j ≤ n

def TrimTo.Sound (L : List (StreamID × E)) (n : Nat) (op : TrimTo E) : Prop :=
  ∃ j, At L (some op.handle) j ∧ op.phase.Sound L n j

variable {op : TrimTo E}

lemma TrimTo.Sound.mono (sound : op.Sound L n) (le : n ≤ n') : op.Sound L n' := by
  obtain ⟨j, hh, pha⟩ := sound
  refine ⟨j, hh, ?_⟩
  cases hsha : op.phase with rw [hsha] at pha
  | scan cursor =>
    obtain ⟨k, hbe, at_k⟩ := pha
    exact ⟨k, Nat.le_trans hbe le, at_k⟩
  | insert msgs =>
    obtain ⟨p, r, s0, rs⟩ := pha
    exact ⟨p, r, Nat.le_trans s0 le, rs⟩
  | trim => exact Nat.le_trans pha le

lemma TrimTo.Sound.append (sound : op.Sound L n)
    (hfr : ∀ x ∈ more, ∀ y ∈ L, y.1 < x.1) : op.Sound (L ++ more) n := by
  obtain ⟨j, hh, pha⟩ := sound
  refine ⟨j, hh.append hfr, ?_⟩
  cases hsha : op.phase with rw [hsha] at pha
  | scan cursor =>
    obtain ⟨k, hbe, at_k⟩ := pha
    exact ⟨k, hbe, at_k.append hfr⟩
  | insert msgs =>
    obtain ⟨p, r, s0, hor, hbd, page, hsho⟩ := pha
    refine ⟨p, r, s0, hor, by rw [length_append]; omega, ?_, hsho⟩
    rw [page, take_append_of_le_length hbd]
  | trim => exact pha

lemma TrimPhase.sound_of_rangeTo (kept : Kept L st) (hh : At L cursor k)
    (hbe : k ≤ st.history.length) (ht : At L (some handle) j) :
    (st.rangeTo cursor handle = [] → j ≤ st.history.length) ∧ (st.rangeTo cursor handle ≠ [] →
        (TrimPhase.insert (st.rangeTo cursor handle)).Sound L st.history.length j) := by
  obtain ⟨m, s0, sm⟩ := kept.stream
  have page := rangeTo_eq sm hh ht
  have hbd := ht.bound
  have sz : (st.rangeTo cursor handle).length = min j (max m k + replayBatchSize) - max m k := by
    rw [page, length_drop, length_take]
    omega
  have bt : 0 < replayBatchSize := by decide
  constructor
  · intro none
    rw [none, length_nil] at sz
    omega
  · intro some
    have hpo := length_pos_iff.mpr some
    exact ⟨max m k, _, by omega, by omega, by omega, page, by omega⟩

lemma TrimTo.next_sound (sorted : Ascending L) (kept : Kept L st)
    (sound : op.Sound L st.history.length) :
    Kept L (op.next st).1 ∧ st.history.length ≤ (op.next st).1.history.length ∧
      ∀ op', (op.next st).2 = some op' →
        op'.Sound L (op.next st).1.history.length ∧ (op.next st).1.stream = st.stream := by
  obtain ⟨j, ht, phase⟩ := sound
  rw [TrimTo.next]
  cases hsha : op.phase with rw [hsha] at phase
  | scan cursor =>
    obtain ⟨k, hbe, hh⟩ := phase
    obtain ⟨hlt, more⟩ := TrimPhase.sound_of_rangeTo kept hh hbe ht
    dsimp only
    cases page : st.rangeTo cursor op.handle with
    | nil =>
      refine ⟨kept, Nat.le_refl _, ?_⟩
      rintro op' ⟨⟩
      exact ⟨⟨j, ht, hlt page⟩, rfl⟩
    | cons x rest =>
      rw [page] at more
      refine ⟨kept, Nat.le_refl _, ?_⟩
      rintro op' ⟨⟩
      exact ⟨⟨j, ht, more (cons_ne_nil x rest)⟩, rfl⟩
  | insert msgs =>
    obtain ⟨p, r, s0, hor, hbd, rfl, short⟩ := phase
    obtain ⟨kept', size⟩ := kept.insertHistory sorted s0 hbd
    refine ⟨kept', by simp only [size]; omega, ?_⟩
    rintro op' ⟨⟩
    refine ⟨⟨j, ht, ?_⟩, rfl⟩
    simp only [size]
    split
    · next small => exact Nat.le_trans (short small) (Nat.le_max_right _ _)
    obtain ⟨c, at_p⟩ := exists_cursor sorted (Nat.le_trans (Nat.le_of_lt hor) hbd)
    have ens : (L.take r).drop p ≠ [] := by
      rw [← length_pos_iff, length_drop, length_take]
      omega
    refine ⟨r, Nat.le_max_right _ _, ?_⟩
    rw [advance_of_ne_nil ens none c]
    exact at_p.advance sorted (Nat.le_of_lt hor) hbd
  | trim =>
    obtain ⟨m, s0, sm⟩ := kept.stream
    refine ⟨⟨kept.table, max m j, ?_, trimMinID_stream ht sm⟩, Nat.le_refl _, ?_⟩
    · exact Nat.max_le.mpr ⟨s0, phase⟩
    · rintro op' ⟨⟩

lemma TrimTo.next_none (op : TrimTo E) (st : TimelineStore E) (hlt : (op.next st).2 = none) :
    op.phase = .trim ∧ (op.next st).1 = st.trimMinID (streamIDNext op.handle) := by
  rw [TrimTo.next] at hlt ⊢
  cases hsha : op.phase with rw [hsha] at hlt
  | scan cursor =>
    dsimp only at hlt
    split at hlt <;> exact absurd hlt (by simp)
  | insert msgs => exact absurd hlt (by simp)
  | trim => exact ⟨rfl, rfl⟩

variable (L st) in
def LoadHistory.Sound : LoadHistory E → Prop
  | .idle => True
  | .rows began out last =>
    began ≤ L.length ∧ ∃ k ≤ st.history.length, At L last k ∧ out = (L.take k).map snd
  | .tail began out cursor =>
    began ≤ L.length ∧ ∃ m k, m ≤ k ∧ st.stream = L.drop m ∧ At L cursor k ∧
      out = (L.take k).map snd
  | .done began out ended =>
    ∃ k, began ≤ k ∧ k ≤ ended ∧ ended ≤ L.length ∧ out = (L.take k).map snd

lemma events_append (le : k ≤ r) :
    (L.take k).map snd ++ ((L.take r).drop k).map snd = (L.take r).map snd := by
  have h1 : L.take k = (L.take r).take k := by rw [take_take, Nat.min_eq_left le]
  rw [← map_append, h1, take_append_drop]

variable {load : LoadHistory E}

lemma LoadHistory.Sound.append (sound : load.Sound L st)
    (new : st.appendedLast key = false) {id ev} (hfr : ∀ y ∈ L, y.1 < id) :
    load.Sound (L ++ [(id, ev)]) (st.appendOnce key id ev) := by
  have fre' : ∀ x ∈ [(id, ev)], ∀ y ∈ L, y.1 < x.1 := forall_mem_singleton.mpr hfr
  have lon : L.length ≤ (L ++ [(id, ev)]).length := by simp
  cases load with
  | idle => trivial
  | rows hbg out hlt =>
    obtain ⟨hbd, k, hbe, hh, rfl⟩ := sound
    rw [appendOnce, new]
    refine ⟨Nat.le_trans hbd lon, k, hbe, hh.append fre', ?_⟩
    rw [take_append_of_le_length hh.bound]
  | tail hbg out cursor =>
    obtain ⟨hbd, m, k, hbe, sm, hh, rfl⟩ := sound
    rw [appendOnce, new]
    refine ⟨Nat.le_trans hbd lon, m, k, hbe, ?_, hh.append fre', ?_⟩
    · change st.stream ++ [(id, ev)] = _
      rw [sm, drop_append_of_le_length (Nat.le_trans hbe hh.bound)]
    · rw [take_append_of_le_length hh.bound]
  | done hbg out hed =>
    obtain ⟨k, s0, stop, hbd, rfl⟩ := sound
    refine ⟨k, s0, stop, Nat.le_trans hbd lon, ?_⟩
    rw [take_append_of_le_length (Nat.le_trans stop hbd)]

lemma LoadHistory.Sound.mono (sound : load.Sound L st)
    (tab : st.history.length ≤ st'.history.length) (sm : st'.stream = st.stream) :
    load.Sound L st' := by
  cases load with
  | idle => trivial
  | rows hbg out hlt =>
    obtain ⟨hbd, k, hbe, rs⟩ := sound
    exact ⟨hbd, k, Nat.le_trans hbe tab, rs⟩
  | tail hbg out cursor =>
    obtain ⟨hbd, m, k, hbe, hs, rs⟩ := sound
    exact ⟨hbd, m, k, hbe, sm.trans hs, rs⟩
  | done hbg out hed => exact sound

variable (st handle load) in
def LoadHistory.Spared : Prop :=
  ∀ began out cursor, load = .tail began out cursor →
    ∀ x ∈ st.stream, x.1 ≤ handle → ¬ Beyond cursor x.1

lemma LoadHistory.Sound.trimMinID (sound : load.Sound L st) (ht : At L (some handle) j)
    (spa : load.Spared st handle) : load.Sound L (st.trimMinID (streamIDNext handle)) := by
  cases load with
  | idle => trivial
  | rows hbg out hlt => exact sound
  | tail hbg out cursor =>
    obtain ⟨hbd, m, k, hbe, sm, hh, evs⟩ := sound
    refine ⟨hbd, max m j, k, ?_, trimMinID_stream ht sm, hh, evs⟩
    refine Nat.max_le.mpr ⟨hbe, ?_⟩
    by_contra over_k
    -- The entry at the cursor would be taken.
    have hi : k < L.length := by
      have := ht.bound
      omega
    have en : L[k]? = some L[k] := getElem?_eq_getElem hi
    have mem : L[k] ∈ st.stream := by
      rw [sm]
      refine mem_of_getElem? (i := k - m) ?_
      rw [getElem?_drop, Nat.add_sub_cancel' hbe, en]
    have htk : L[k].1 ≤ handle := by
      refine not_lt.mp fun hla => over_k ?_
      exact (ht.beyond_iff en).mp hla
    exact spa hbg out cursor rfl L[k] mem htk ((hh.beyond_iff en).mpr (Nat.le_refl k))
  | done hbg out hed => exact sound

def LoadHistory.left (count : Nat) : LoadHistory E → Nat
  | .idle => 0
  | .rows _ out _ => count - out.length + 2
  | .tail _ out _ => count - out.length + 1
  | .done .. => 0

/-- The load has returned. -/
def LoadHistory.Returned (load : LoadHistory E) : Prop :=
  ∃ began out ended, load = .done began out ended

section
variable (sorted : Ascending L) (kept : Kept L st) (sound : load.Sound L st)
include sorted kept sound

lemma LoadHistory.next_sound : (load.next st L.length).Sound L st := by
  cases load with
  | idle => trivial
  | rows hbg out hlt =>
    obtain ⟨hbd, k, hbe, hh, rfl⟩ := sound
    have hi := kept.length_le
    have le : k ≤ min st.history.length (k + replayBatchSize) := by omega
    have ht := hh.advance sorted le (by omega)
    rw [next, historyPage_eq sorted kept hh]
    rw [events_append le]
    split
    · -- A short page ends at the last row, and the stream goes on from there.
      case isTrue hsho =>
        rw [length_drop, length_take] at hsho
        obtain ⟨m, s0, sm⟩ := kept.stream
        exact ⟨hbd, m, _, by omega, sm, ht, rfl⟩
    · exact ⟨hbd, _, Nat.min_le_left _ _, ht, rfl⟩
  | tail hbg out cursor =>
    obtain ⟨hbd, m, k, hbe, sm, hh, rfl⟩ := sound
    have hi := hh.bound
    have le : k ≤ min L.length (k + replayBatchSize) := by omega
    have ht := hh.advance sorted le (Nat.min_le_left _ _)
    rw [next, rangeTail_eq sm hbe hh]
    rw [events_append le]
    split
    · next hsho =>
      rw [length_drop, length_take] at hsho
      exact ⟨_, by omega, Nat.min_le_left _ _, Nat.le_refl _, rfl⟩
    · exact ⟨hbd, m, _, by omega, sm, ht, rfl⟩
  | done hbg out hed => exact sound

lemma LoadHistory.next_left (going : load.left L.length ≠ 0) :
    (load.next st L.length).left L.length < load.left L.length := by
  have batch : 0 < replayBatchSize := by decide
  have ha := next_sound sorted kept sound
  have evs (k : Nat) : ((L.take k).map snd).length ≤ L.length := by
    rw [length_map]
    exact length_take_le' k L
  cases load with
  | idle => exact absurd rfl going
  | rows hbg out hlt =>
    rw [next] at ha ⊢
    split at ha
    · next short =>
      rw [if_pos short, left, left, length_append]
      omega
    · next full =>
      obtain ⟨-, k, -, -, read⟩ := ha
      have hbd := evs k
      rw [← read] at hbd
      rw [if_neg full, left, left]
      rw [length_append, length_map] at hbd ⊢
      omega
  | tail hbg out cursor =>
    rw [next] at ha ⊢
    split at ha
    · next short =>
      rw [if_pos short]
      exact Nat.succ_pos _
    · next full =>
      obtain ⟨-, -, k, -, -, -, read⟩ := ha
      have hbd := evs k
      rw [← read] at hbd
      rw [if_neg full, left, left]
      rw [length_append, length_map] at hbd ⊢
      omega
  | done hbg out hed => exact absurd rfl going

lemma LoadHistory.exists_returned (begun : load ≠ .idle) :
    ∃ n, ((next st L.length)^[n] load).Returned := by
  induction sz : load.left L.length using Nat.strong_induction_on generalizing load with
  | _ sz ih =>
    by_cases goi : load.left L.length = 0
    · cases load with
      | idle => exact absurd rfl begun
      | rows hbg out hlt | tail hbg out cursor => exact absurd goi (Nat.succ_ne_zero _)
      | done hbg out hed => exact ⟨0, hbg, out, hed, rfl⟩
    · have beg' : load.next st L.length ≠ .idle := by
        cases load with
        | idle => exact absurd rfl begun
        | rows hbg out hlt | tail hbg out cursor => rw [next]; split <;> simp
        | done hbg out hed => simp [next]
      obtain ⟨n, hre⟩ := ih _ (sz ▸ next_left sorted kept sound goi)
        (next_sound sorted kept sound) beg' rfl
      exact ⟨n + 1, hre⟩

end

/-- The invariant of a run. -/
structure System.Sound (s : System E) : Prop where
  sorted : Ascending s.appended
  kept : Kept s.appended s.store
  trims : ∀ op ∈ s.trims, op.Sound s.appended s.store.history.length
  load : s.load.Sound s.appended s.store

/-- A trim comes to its `XTRIM` while no load still has to read what it takes. -/
def System.Safe (s : System E) : Action E → Prop
  | .startTrim handle => ∃ x ∈ s.appended, handle ≤ x.1
  | .stepTrim i => ∀ op, s.trims[i]? = some op → op.phase matches .trim →
      s.load.Spared s.store op.handle
  | _ => True

variable {s : System E}

lemma System.Sound.append (sound : s.Sound) (key id ev) : (s.step (.append key id ev)).Sound := by
  rw [System.step]
  split
  · exact sound
  next pos =>
  rw [not_or, not_not, Bool.not_eq_true] at pos
  obtain ⟨new, hfr⟩ := pos
  have fre' : ∀ x ∈ [(id, ev)], ∀ y ∈ s.appended, y.1 < x.1 := forall_mem_singleton.mpr hfr
  refine ⟨?_, sound.kept.append new id ev, fun op mem => ?_, sound.load.append new hfr⟩
  · refine pairwise_append.mpr ⟨sound.sorted, pairwise_singleton _ _, ?_⟩
    exact fun y mem x hlt => fre' x hlt y mem
  have tab : (s.store.appendOnce key id ev).history = s.store.history := by
    rw [appendOnce, new]
    rfl
  rw [tab]
  exact (sound.trims op mem).append fre'

lemma System.Sound.startTrim (sound : s.Sound) (hk : ∃ x ∈ s.appended, handle ≤ x.1) :
    (s.step (.startTrim handle)).Sound := by
  refine ⟨sound.sorted, sound.kept, forall_mem_append.mpr ⟨sound.trims, ?_⟩, sound.load⟩
  refine forall_mem_singleton.mpr ?_
  obtain ⟨j, ht⟩ := exists_at sound.sorted hk
  exact ⟨j, ht, 0, Nat.zero_le _, at_start _⟩

lemma System.Sound.stepTrim (sound : s.Sound) (hsf : s.Safe (.stepTrim i)) :
    (s.step (.stepTrim i)).Sound := by
  rw [System.step]
  cases en : s.trims[i]? with
  | none => exact sound
  | some op =>
    have hh := sound.trims op (mem_of_getElem? en)
    obtain ⟨kept, tab, nx⟩ := TrimTo.next_sound sound.sorted sound.kept hh
    have hlt := op.next_none s.store
    dsimp only
    generalize op.next s.store = res at kept tab nx hlt ⊢
    obtain ⟨so, _ | op'⟩ := res
    · obtain ⟨pha, rfl⟩ := hlt rfl
      obtain ⟨j, ht, -⟩ := hh
      refine ⟨sound.sorted, kept, fun op mem => ?_, ?_⟩
      · exact (sound.trims op (mem_of_mem_eraseIdx mem)).mono tab
      · exact sound.load.trimMinID ht (hsf op en (by rw [pha]))
    · obtain ⟨hso', sm⟩ := nx op' rfl
      refine ⟨sound.sorted, kept, fun op mem => ?_, sound.load.mono tab sm⟩
      rcases mem_or_eq_of_mem_set mem with old | rfl
      · exact (sound.trims op old).mono tab
      · exact hso'

lemma System.Sound.step (sound : s.Sound) (hsf : s.Safe a) : (s.step a).Sound := by
  cases a with
  | append key id ev => exact sound.append key id ev
  | startTrim handle => exact sound.startTrim hsf
  | stepTrim i => exact sound.stepTrim hsf
  | failTrim i =>
    exact ⟨sound.sorted, sound.kept, fun op mem => sound.trims op (mem_of_mem_eraseIdx mem),
      sound.load⟩
  | startLoad =>
    rw [System.step]
    split
    · exact ⟨sound.sorted, sound.kept, sound.trims,
        Nat.le_refl _, 0, Nat.zero_le _, at_start _, rfl⟩
    · exact sound
  | stepLoad =>
    exact ⟨sound.sorted, sound.kept, sound.trims,
      next_sound sound.sorted sound.kept sound.load⟩

lemma System.run_append (acs more : List (Action E)) :
    System.run (acs ++ more) = more.foldl System.step (System.run acs) :=
  foldl_append

lemma System.sound_run {acs : List (Action E)}
    (hsf : ∀ hb a ha, acs = hb ++ a :: ha → (System.run hb).Safe a) :
    (System.run acs).Sound := by
  refine Prefix.induction (P := fun hb => (System.run hb).Sound)
    ⟨List.Pairwise.nil, ⟨rfl, 0, Nat.le_refl 0, rfl⟩, nofun, trivial⟩ ?_ acs []
    (append_nil acs).symm
  intro hb a ha split sound
  rw [System.run_append]
  exact sound.step (hsf hb a ha split)

lemma System.foldl_stepLoad (s : System E) (n : Nat) :
    ((replicate n .stepLoad).foldl System.step s).load =
      (next s.store s.appended.length)^[n] s.load := by
  induction n generalizing s with
  | zero => rfl
  | succ n ih => exact ih _

/-- A load that returns has read every event appended up to some moment of the call, each once and
in order, and a load that has begun returns when it is left to go on. -/
theorem loadHistory_complete (actions : List (Action E))
    (safe : ∀ before a after, actions = before ++ a :: after → (System.run before).Safe a) :
    (∀ began out ended, (System.run actions).load = .done began out ended →
      ∃ k, began ≤ k ∧ k ≤ ended ∧ ended ≤ (System.run actions).appended.length ∧
        out = ((System.run actions).appended.take k).map Prod.snd) ∧
    ((System.run actions).load ≠ .idle →
      ∃ n, (System.run (actions ++ List.replicate n .stepLoad)).load.Returned) := by
  have sound := System.sound_run safe
  constructor
  · intro began out ended done
    have load := sound.load
    rw [done] at load
    exact load
  · intro begun
    obtain ⟨n, hre⟩ := exists_returned sound.sorted sound.kept sound.load begun
    refine ⟨n, ?_⟩
    rwa [System.run_append, System.foldl_stepLoad]

def appendDuringLoad : List (Action Nat) :=
  [.append "a" (toLex (1, 0)) 10, .startTrim (toLex (1, 0)), .stepTrim 0, .stepTrim 0, .stepTrim 0,
    .startLoad, .stepLoad, .append "b" (toLex (2, 0)) 20, .stepLoad]

/-- The first event is trimmed before the load, and the second comes between its reads. -/
theorem loadHistory_complete_append : (System.run (appendDuringLoad.take 5)).store.stream = [] ∧
      (System.run appendDuringLoad).load = .done 1 [10, 20] 2 ∧
      ∃ k, 1 ≤ k ∧ k ≤ 2 ∧ 2 ≤ (System.run appendDuringLoad).appended.length ∧
        [10, 20] = ((System.run appendDuringLoad).appended.take k).map Prod.snd := by
  have hre : (System.run appendDuringLoad).load = .done 1 [10, 20] 2 := rfl
  have hk : ∃ x ∈ (System.run (appendDuringLoad.take 1)).appended, toLex (1, 0) ≤ x.1 :=
    ⟨_, mem_cons_self, le_refl _⟩
  have hsf : Prefix.All (fun hb a => (System.run hb).Safe a) [] appendDuringLoad := by
    refine ⟨trivial, hk, ?_, ?_, ?_, trivial, trivial, trivial, trivial, trivial⟩
    all_goals
      intro op _ _ hbg out cursor tail
      cases tail
  exact ⟨rfl, hre, (loadHistory_complete _ (Prefix.forall_split hsf)).1 _ _ _ hre⟩

/-- A trim moves the first event between the two reads of a load. -/
def trimDuringLoad : List (Action Nat) :=
  [.append "a" (toLex (1, 0)) 10, .append "b" (toLex (2, 0)) 20, .startTrim (toLex (1, 0)),
    .startLoad, .stepLoad, .stepTrim 0, .stepTrim 0, .stepTrim 0, .stepLoad]

theorem loadHistory_gap : (System.run trimDuringLoad).load = .done 2 [20] 2 ∧
      ∀ k, [20] ≠ ((System.run trimDuringLoad).appended.take k).map Prod.snd := by
  refine ⟨rfl, fun k => ?_⟩
  have appended : (System.run trimDuringLoad).appended =
      [(toLex (1, 0), 10), (toLex (2, 0), 20)] := rfl
  rw [appended]
  match k with
  | 0 => decide
  | k + 1 => exact fun hs => absurd (List.cons.inj hs).1 (by decide)

end Gibson.Datapool
