import Gibson.Lib.Calls

/-! A call among others, followed by what may happen to the state between its requests. -/

namespace Gibson.Calls

open Interleaving Requests

variable {S O Q A E : Type} {R : Q → Type} {α β : Type}

/-- Whatever happens between the requests, a condition holds when the program returns. -/
def Always (serve : S → (q : Q) → A → Option (S × R q)) (Relied : S → S → Prop)
    (Post : History Q R → S → α → Prop) : Program Q R α → History Q R → S → Prop
  | .done x, past, s => ∀ s', Relied s s' → Post past s' x
  | .ask q next, past, s => ∀ s', Relied s s' → ∀ a t r, serve s' q a = some (t, r) →
    Always serve Relied Post (next r) (⟨q, r⟩ :: past) t

section
variable {f : S → (q : Q) → A → Option (S × R q)} {K : S → S → Prop}
  {P : History Q R → S → α → Prop} {past : History Q R} {s s' : S}
variable {p : Program Q R α}

lemma Always.moved (alw : Always f K P p past s) (hm : K s s')
    (trans : ∀ x y z, K x y → K y z → K x z) : Always f K P p past s' := by
  cases p with
  | done x | ask q nx => exact fun t hla => alw t (trans _ _ _ hm hla)

lemma always_bind {P' : History Q R → S → β → Prop} {k : α → Program Q R β} (refl : ∀ x, K x x)
    (h1 : Always f K (fun past s x => Always f K P' (k x) past s) p past s) :
    Always f K P' (p >>= k) past s := by
  induction p generalizing past s with
  | done x => exact h1 s (refl s)
  | ask q nx ih => exact fun s' hm a t r hv => ih r (h1 s' hm a t r hv)

lemma always_mono {P' : History Q R → S → α → Prop} (alw : Always f K P p past s)
    (wea : ∀ past s x, P past s x → P' past s x) : Always f K P' p past s := by
  induction p generalizing past s with
  | done x => exact fun s' hm => wea _ _ _ (alw s' hm)
  | ask q nx ih => exact fun s' hm a t r hv => ih r (alw s' hm a t r hv)

lemma always_of_obeys {I : S → Prop} {N : Q → Prop} {M : α → Prop}
    (sta : ∀ x y, K x y → I x → I y)
    (kp : ∀ x q a t r, N q → I x → f x q a = some (t, r) → I t)
    (hob : Obeys (fun _ _ => True) (fun _ q => N q) M sin p) (hh : I s) :
    Always f K (fun _ s x => I s ∧ M x) p past s := by
  induction p generalizing past sin s with
  | done x => exact fun s' hm => ⟨sta _ _ hm hh, hob⟩
  | ask q nx ih =>
    intro s' hm a t r hv
    exact ih r (hob.2 r trivial) (kp s' q a t r hob.1 (sta _ _ hm hh) hv)

end

variable {b : O → Program Q R α} {f : S → (q : Q) → A → Option (S × R q)} {g : S → E → S}
  {K : S → S → Prop} {N : Q → Prop} {P : History Q R → S → α → Prop}

/-- Every request satisfies `N`, whatever is answered. -/
abbrev OnlyAsks (N : Q → Prop) (past : History Q R) (p : Program Q R α) : Prop :=
  Obeys (fun _ _ => True) (fun _ q => N q) (fun _ => True) past p

variable (f K N P) in
/-- The first call, whatever others do. -/
structure Watched (w : World (Served S O Q R) (Call O Q R α)) : Prop where
  first : ∃ c, w.calls[0]? = some c ∧ Always f K P c.rest c.past w.shared.state
  others : ∀ (i : Nat) (c : Call O Q R α), i ≠ 0 → w.calls[i]? = some c →
    Obeys (fun _ _ => True) (fun _ q => N q) (fun _ => True) c.past c.rest

lemma watched_single {c : Call O Q R α}
    (way : Always f K P c.rest c.past s.state) : Watched f K N P { shared := s, calls := [c] } := by
  refine ⟨⟨c, rfl, way⟩, fun i d ne hh => ?_⟩
  obtain ⟨i, rfl⟩ := Nat.exists_eq_succ_of_ne_zero ne
  cases hh

section
variable {w : World (Served S O Q R) (Call O Q R α)}

lemma Watched.start (hwa : Watched f K N P w) (bd : OnlyAsks N [] (b op)) :
    Watched f K N P (step (system b f g) w (.start op)) := by
  obtain ⟨c, hh, way⟩ := hwa.first
  have hbd := (List.getElem?_eq_some_iff.mp hh).1
  refine ⟨⟨c, by rw [step, List.getElem?_append_left hbd, hh], way⟩, fun i d ne cl => ?_⟩
  obtain ⟨old, -⟩ | ⟨_, hs, -, rfl⟩ | ⟨_, _, hs, _⟩ := calls_step cl
  · exact hwa.others i d ne old
  · cases hs
    exact bd
  · cases hs

lemma Watched.advance (hwa : Watched f K N P w) (refl : ∀ s, K s s)
    (trans : ∀ x y z, K x y → K y z → K x z)
    (kp : ∀ s q a t r, N q → f s q a = some (t, r) → K s t) (i : Nat) (a) :
    Watched f K N P (step (system b f g) w (.advance i a)) := by
  obtain ⟨c, hh, way⟩ := hwa.first
  refine ⟨?_, fun j d ne cl => ?_⟩
  · by_cases own : i = 0
    · subst own
      obtain ⟨hon, pl⟩ : Always f K P (Calls.advance f w.shared c a).2.rest
          (Calls.advance f w.shared c a).2.past (Calls.advance f w.shared c a).1.state ∧
          0 < w.calls.length := by
        refine ⟨?_, (List.getElem?_eq_some_iff.mp hh).1⟩
        obtain hs | ⟨q, nx, st, r, rs, han, hm⟩ :=
          advance_cases (f := f) w.shared c a
        · rwa [hs]
        rw [rs] at way
        rw [hm]
        exact way _ (refl _) a st r han
      refine ⟨(Calls.advance f w.shared c a).2, ?_, ?_⟩
      · rw [step_advance_some hh, List.getElem?_set_self pl]
        rfl
      · rwa [step_advance_some hh]
    · refine ⟨c, ?_, way.moved ?_ trans⟩
      · simp only [step]
        split
        · exact hh
        · rwa [List.getElem?_set_ne own]
      · obtain hs | ⟨_, hs, -⟩ | ⟨_, _, d, q, _, _, _, hs, cl, rs, han, hm⟩ :=
          step_shared (b := b) (f := f) (g := g) w (.advance i a)
        · rw [hs]
          exact refl _
        · cases hs
        cases hs
        have hob := hwa.others i d own cl
        rw [rs] at hob
        rw [hm]
        exact kp _ _ _ _ _ hob.1 han
  · obtain ⟨old, -⟩ | ⟨_, hs, _⟩ | ⟨a', hb, -, old, rfl⟩ := calls_step cl
    · exact hwa.others j d ne old
    · cases hs
    have hob := hwa.others j hb ne old
    simp only [system]
    obtain hs | ⟨q, nx, st, r, rs, -, hm⟩ := advance_cases (f := f) w.shared hb a'
    · rwa [hs]
    rw [rs] at hob
    rw [hm]
    exact hob.2 r trivial

end

lemma watched_run (ss : List (Step O A E))
    (refl : ∀ s, K s s) (trans : ∀ x y z, K x y → K y z → K x z) (hwa : Watched f K N P w)
    (bod : ∀ op, .start op ∈ ss → OnlyAsks N [] (b op))
    (kp : ∀ s q a t r, N q → f s q a = some (t, r) → K s t)
    (out : ∀ hb e ha, ss = hb ++ .outside e :: ha →
      K (run (system b f g) w hb).shared.state
        (g (run (system b f g) w hb).shared.state e)) :
    Watched f K N P (run (system b f g) w ss) := by
  induction ss using List.reverseRecOn with
  | nil => exact hwa
  | append_singleton hb x ih =>
    rw [run_append_singleton]
    have sf := ih (fun op mem => bod op (by simp [mem]))
      fun hb' e ha split => out hb' e (ha ++ [x]) (by simp [split])
    cases x with
    | start op => exact sf.start (bod op (by simp))
    | outside e =>
      obtain ⟨c, hh, way⟩ := sf.first
      exact ⟨⟨c, hh, way.moved (out hb e [] rfl) trans⟩, sf.others⟩
    | advance i a => exact sf.advance refl trans kp i a

lemma Watched.returned (hwa : Watched f K N P w)
    (refl : ∀ s, K s s) {c : Call O Q R α} (hh : w.calls[0]? = some c) {x : α}
    (hre : c.rest = .done x) : P c.past w.shared.state x := by
  obtain ⟨c', her', way⟩ := hwa.first
  cases hh.symm.trans her'
  rw [hre] at way
  exact way _ (refl _)

end Gibson.Calls
