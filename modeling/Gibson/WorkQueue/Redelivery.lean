import Gibson.WorkQueue.Queue

/-! What becomes of an item that a consumer claimed and never finished. Claims read without
acknowledgement, so the list of pending entries stays empty. -/

namespace Gibson.WorkQueue

open ConsumerGroup Requests Interleaving Calls Function

inductive QueueOp where
  | enqueue (fresh : Fresh) (tenant kind name : String) (item : WorkItem)
  | claim (turn : Turn) (tenant kind name consumerID : String) (blockTimeout : Int)
  | acknowledge (tenant kind name : String) (messageID : Nat)
  | reclaimAbandoned (tenant kind name : String) (idleTimeout : Nat)

/-- An operation as a call; only a claim returns an item. -/
def QueueOp.body : QueueOp → Redis.Prog (Option Message)
  | .enqueue fresh tenant kind name item => do
    let _ ← WorkQueue.enqueue fresh tenant kind name item
    pure none
  | .claim turn tenant kind name consumerID blockTimeout => do
    match ← WorkQueue.claim turn tenant kind name consumerID blockTimeout with
    | .ok message => pure message
    | .error _ => pure none
  | .acknowledge tenant kind name messageID => do
    let _ ← WorkQueue.acknowledge tenant kind name messageID
    pure none
  | .reclaimAbandoned tenant kind name idleTimeout => do
    let _ ← WorkQueue.reclaimAbandoned tenant kind name idleTimeout
    pure none

/-- A consumer that crashes is a call that takes no further step. -/
def queueSystem : System (Served Redis QueueOp Request Reply) QueueOp
      (Call QueueOp Request Reply (Option Message)) Answer Change :=
  Calls.system QueueOp.body Redis.serve Redis.change

abbrev QueueWorld :=
  World (Served Redis QueueOp Request Reply) (Call QueueOp Request Reply (Option Message))

abbrev QueueStep := Step QueueOp Answer Change

/-- The queue before anything was enqueued. -/
def QueueWorld.empty : QueueWorld := { shared := { state := {} } }

/-- An entry of a stream has been handed out to a consumer. -/
def Claimed (s : Redis) (stream : String) (id : Nat) : Prop :=
  ∃ e ∈ (s.streams stream).entries, e.id = id ∧ id ≤ (s.streams stream).cursor

/-- Some continuation has a claim, begun after this point, that returns the entry. -/
def Returnable (w : QueueWorld) (stream : String) (id : Nat) : Prop :=
  ∃ more j c message, w.calls.length ≤ j ∧ (run queueSystem w more).calls[j]? = some c ∧
    c.rest = .done (some message) ∧ message.stream = stream ∧ message.id = id

variable {stream : String}

lemma cursor_setStream (s : Redis) (forward : (s.streams stream).cursor ≤ contents.cursor) (key) :
    (s.streams key).cursor ≤ ((s.setStream stream contents).streams key).cursor := by
  by_cases hs : key = stream
  · subst hs
    simpa [Redis.setStream] using forward
  · simp [Redis.setStream, update_of_ne hs]

variable {s state : Redis}

lemma cursor_perform (hpe : s.perform elapsed q = some (state, r)) (key : String) :
    (s.streams key).cursor ≤ (state.streams key).cursor := by
  cases q with
  | xadd stream it | xgroupCreate stream | xclaim stream con minIdle ids =>
    obtain ⟨rfl, -⟩ := Prod.mk.inj (Option.some.inj hpe)
    exact cursor_setStream s (by simp) key
  | xack stream id =>
    obtain ⟨rfl, -⟩ := Prod.mk.inj (Option.some.inj hpe)
    by_cases hs : key = stream
    · subst hs
      simp
    · simp [update_of_ne hs]
  | xreadgroup stream con block noAck =>
    obtain ⟨rfl, -⟩ | ⟨e, hf, rfl, -⟩ := Redis.perform_xreadgroup hpe
    · exact Nat.le_refl _
    · have hby := Stream.cursor_lt_undelivered _ hf
      exact cursor_setStream s (by simpa using Nat.le_of_lt hby) key
  | receive sbn =>
    obtain ⟨_, rfl⟩ := Redis.perform_receive hpe
    exact Nat.le_refl _
  | _ =>
    obtain ⟨rfl, -⟩ := Prod.mk.inj (Option.some.inj hpe)
    exact Nat.le_refl _

lemma cursor_serve (han : s.serve q a = some (state, r)) (key) :
    (s.streams key).cursor ≤ (state.streams key).cursor := by
  obtain ⟨rfl, -⟩ | ⟨el, r', hpe, -⟩ := Redis.serve_cases han
  · exact Nat.le_refl _
  · exact cursor_perform hpe key

lemma cursor_lt_read
    (han : s.serve (.xreadgroup stream consumer block noAck) a = some (state, .ok (some
      message))) : (s.streams message.stream).cursor < message.id := by
  obtain ⟨-, failed⟩ | ⟨el, r', hpe, hs | failed⟩ := Redis.serve_cases han
  · contradiction
  · obtain ⟨-, hno⟩ | ⟨e, hf, -, handed⟩ := Redis.perform_xreadgroup hpe
    · exact absurd hs.symm (hno message)
    · cases Except.ok.inj (hs.trans handed)
      exact Stream.cursor_lt_undelivered _ hf
  · contradiction

def NotHanding (stream : String) (id : Nat) : (q : Request) → Reply q → Prop
  | .xreadgroup _ _ _ _, .ok (some message) => ¬(message.stream = stream ∧ message.id = id)
  | _, _ => True

def Waives : Request → Prop
  | .xreadgroup _ _ _ noAck => noAck = true
  | _ => True

lemma Message.ReturnedAs.entry_eq {msg hre : Message}
    (hs : hre.ReturnedAs msg) :
    hre.stream = msg.stream ∧ hre.id = msg.id := by
  obtain rfl | rfl := hs
  · exact ⟨rfl, rfl⟩
  · simp only [Message.fromTenant]
    split <;> exact ⟨rfl, rfl⟩

lemma QueueOp.body_obeys {V : (q : Request) → Reply q → Prop} {T : Message → Prop}
    (handed : ∀ stream con block msg hre,
      V (.xreadgroup stream con block true) (.ok (some msg)) →
      hre.ReturnedAs msg → T hre) (op : QueueOp) :
    Obeys V (fun _ => Waives) (fun hre => ∀ msg, hre = some msg → T msg)
      pa op.body := by
  have hsil : ∀ msg : Message, none = some msg → T msg := by simp
  cases op with
  | claim turn tn kd name consumerID blockTimeout =>
    apply claim_obeys
    · exact fun _ _ _ => trivial
    · exact fun _ _ => trivial
    · exact fun _ _ _ _ => rfl
    · exact fun _ _ => obeys_pure hsil
    · exact fun _ => obeys_pure hsil
    intro pa stream con block msg hre hva _ hs
    refine obeys_pure fun hcla hag => ?_
    cases hag
    exact handed stream con block msg _ hva hs
  | enqueue hfr tn kd name it =>
    refine obeys_bind (enqueue_obeys ?_ ?_ ?_ ?_) fun _ _ _ => obeys_pure hsil
    all_goals intros; trivial
  | acknowledge tn kd name messageID =>
    refine obeys_bind (acknowledge_obeys ?_) fun _ _ _ => obeys_pure hsil
    exact fun _ _ _ => trivial
  | reclaimAbandoned tn kd name idleTimeout =>
    refine obeys_bind (reclaimAbandoned_obeys ?_ ?_ ?_) fun _ _ _ => obeys_pure hsil
    all_goals intros; trivial

lemma not_returnable {w : QueueWorld} {id} (hcla : Claimed w.shared.state stream id) :
    ¬Returnable w stream id := by
  rintro ⟨more, j, c, msg, hla, cl, hre, hs⟩
  obtain ⟨_, _, _, hpd⟩ := hcla
  have not {msg hre : Message}
      (ho : ¬(msg.stream = stream ∧ msg.id = id))
      (hs : hre.ReturnedAs msg) :
      ¬(hre.stream = stream ∧ hre.id = id) := by
    rwa [hs.entry_eq.1, hs.entry_eq.2]
  have hlaw := (lawful_run more (n := w.calls.length) (L := fun _ => True)
    (V := NotHanding stream id) (P := fun _ _ => Waives)
    (T := fun _ hre => ∀ msg, hre = some msg →
      ¬(msg.stream = stream ∧ msg.id = id))
    (I := fun s : Served Redis QueueOp Request Reply => id ≤ (s.state.streams stream).cursor)
    (b := QueueOp.body) (f := Redis.serve) (g := Redis.change) hpd ?_ (Nat.le_refl _)
    (fun op _ => QueueOp.body_obeys (fun _ _ _ _ _ => not) op) ?_ ?_ ?_
    (fun _ _ => trivial)).2.1 j c hla cl
  · exact hlaw.returned hre msg rfl hs
  · intro i c hh ht
    have := (List.getElem?_eq_some_iff.mp ht).1
    omega
  · intro s op q a state r _ inv han
    exact Nat.le_trans inv (cursor_serve han stream)
  · intro s op pa q a state r _ inv _ _ han
    refine ⟨?_, Nat.le_trans inv (cursor_serve han stream)⟩
    match q, r, han with
    | .xreadgroup _ _ _ _, .ok (some msg), han =>
      rintro ⟨rfl, hs⟩
      have hby := cursor_lt_read han
      omega
    | .xreadgroup _ _ _ _, .ok none, _ => trivial
    | .xreadgroup _ _ _ _, .error _, _ => trivial
    | .get _, _, _ | .set _ _, _, _ | .xadd _ _, _, _ | .xgroupCreate _, _, _
    | .xpending _ _, _, _ | .xclaim _ _ _ _, _, _ | .xack _ _, _, _ | .scan _ _, _, _
    | .publish _, _, _ | .subscribe _, _, _ | .receive _, _, _ => trivial
  · intro s e inv
    cases e <;> exact inv

/-- In no run can an item that a consumer claimed be returned again by a later claim, however often
abandoned work is reclaimed. -/
theorem claimed_work_never_returns (steps : List QueueStep) :
    ¬∃ stream id, Claimed (run queueSystem QueueWorld.empty steps).shared.state stream id ∧
      Returnable (run queueSystem QueueWorld.empty steps) stream id := by
  rintro ⟨stream, id, hcla, ret⟩
  exact not_returnable hcla ret

def crashedConsumer : List QueueStep :=
  [.start (.enqueue ⟨"", 1, fun _ => none⟩ "acme" "tool" "nmap" { workID := "w1" }),
    .advance 0 .served, .advance 0 .served,
    .start (.claim ⟨id, 0, fun _ => .rfl⟩ "acme" "tool" "nmap" "worker-1" 1000),
    .advance 1 .served, .advance 1 .served,
    .outside (.tick 600),
    .start (.reclaimAbandoned "acme" "tool" "nmap" 300),
    .advance 2 .served, .advance 2 .served]

theorem crashedConsumer_loses_item :
    ((run queueSystem QueueWorld.empty crashedConsumer).calls.map fun c =>
        match c.rest with
        | .done returned => some (returned.map fun message => message.item.workID)
        | .ask _ _ => none) = [some none, some (some "w1"), some none] ∧
      Claimed (run queueSystem QueueWorld.empty crashedConsumer).shared.state
        "work:acme:tool:nmap" 1 ∧
      ¬Returnable (run queueSystem QueueWorld.empty crashedConsumer) "work:acme:tool:nmap" 1 := by
  have claimed : Claimed (run queueSystem QueueWorld.empty crashedConsumer).shared.state
      "work:acme:tool:nmap" 1 :=
    ⟨⟨1, { workID := "w1", createdAt := 1 }⟩, by decide, rfl, by decide⟩
  exact ⟨rfl, claimed, not_returnable claimed⟩

end Gibson.WorkQueue
