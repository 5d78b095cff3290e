import Blake2s.Host
import Blake2s.Proofs.Backend.Lawful
import Blake2s.Proofs.Engine.Operations

set_option autoImplicit false

/-! # Hosts with lawful backends

Compressing through a host changes nothing in it but the offers that its backends have received
(`Host.SameButOffers`). So the engine of a pin is lawful as long as the pin is *settled*: as long as
the backend to use is known, or detected without fail at the first use, and lawful. In a lawful host
some detection has succeeded, and all backends that are or may come into use are lawful; there every
engine is lawful (`Host.engine_lawful`). -/

namespace Blake2s

namespace Host

/-! ## Compression changes offers only -/

/-- The backend in use at a place. -/
def backend? (p : Host) (id : BackendId) : Option Backend := p.backends[id]?.map (·.backend)

/-- Are two hosts the same, except for what was offered to their backends? -/
structure SameButOffers (p q : Host) : Prop where
  environment : q.environment = p.environment
  candidate : q.candidate = p.candidate
  backends : ∀ id, q.backend? id = p.backend? id
  selection : q.selection = p.selection
  log : q.log = p.log

theorem SameButOffers.refl (p : Host) : p.SameButOffers p := ⟨rfl, rfl, fun _ => rfl, rfl, rfl⟩

theorem SameButOffers.trans {p q r : Host} (h : p.SameButOffers q) (h' : q.SameButOffers r) :
    p.SameButOffers r where
  environment := h'.environment.trans h.environment
  candidate := h'.candidate.trans h.candidate
  backends id := (h'.backends id).trans (h.backends id)
  selection := h'.selection.trans h.selection
  log := h'.log.trans h.log

/-- Another instance of the same backend in its place. -/
theorem sameButOffers_set {p : Host} {id : BackendId} {i j : Backend.Instance}
    (hi : p.backends[id]? = some i) (same : j.backend = i.backend) :
    p.SameButOffers { p with backends := p.backends.setIfInBounds id j } := by
  refine ⟨rfl, rfl, fun other => ?_, rfl, rfl⟩
  unfold backend?
  rw [Array.getElem?_setIfInBounds]
  by_cases h : id = other
  · subst h
    obtain ⟨lt, -⟩ := Array.getElem?_eq_some_iff.mp hi
    rw [if_pos rfl, if_pos lt, hi, Option.map_some, Option.map_some, same]
  · rw [if_neg h]

theorem runOn_compressBy_of_none {p : Host} {id : BackendId} (h : p.backends[id]? = none)
    (chain : Chain) (batch : Batch) :
    Action.runOn (compressBy id chain batch) p = (.ok (chain.compress batch), p) := by
  simp only [compressBy, Action.runOn_bind, Action.runOn_get, h, Action.runOn_pure]

theorem runOn_compressBy_of_some {p : Host} {id : BackendId} {i : Backend.Instance}
    (h : p.backends[id]? = some i) (chain : Chain) (batch : Batch) :
    Action.runOn (compressBy id chain batch) p
      = ((Action.runOn (Backend.Instance.engine chain batch) i).1,
         { p with
           backends := p.backends.setIfInBounds id
             (Action.runOn (Backend.Instance.engine chain batch) i).2 }) := by
  simp only [compressBy, Action.runOn_bind, Action.runOn_get, h]
  rfl

/-- A backend in use that is lawful, if it is there. -/
def LawfulAt (p : Host) (id : BackendId) : Prop := ∀ b ∈ p.backend? id, b.Lawful

/-- Compressing through one lawful backend. -/
theorem compressBy_of_lawful {p : Host} {id : BackendId} (lawful : p.LawfulAt id) (chain : Chain)
    (batch : Batch) :
    (Action.runOn (compressBy id chain batch) p).1 = .ok (chain.compress batch) ∧
      p.SameButOffers (Action.runOn (compressBy id chain batch) p).2 := by
  cases h : p.backends[id]? with
  | none =>
    rw [runOn_compressBy_of_none h]
    exact ⟨rfl, .refl p⟩
  | some i =>
    have here : i.backend.Lawful := lawful i.backend (by rw [backend?, h]; rfl)
    rw [runOn_compressBy_of_some h]
    exact ⟨Backend.Instance.outcome_of_lawful here chain batch, sameButOffers_set h rfl⟩

/-! ## Settled pins -/

/-- Finds out by what states with the given pin compress; no backend stands for the generic
    compression. -/
def resolve : (pin : Option BackendId) → HostM (Option BackendId)
  | some id => pure (some id)
  | none => activeBackend

/-- Compresses through a backend in use, or generically. -/
def compressChosen : Option BackendId → Engine Host
  | some id => compressBy id
  | none => Engine.generic

theorem engine_eq (pin : Option BackendId) (chain : Chain) (batch : Batch) :
    engine pin chain batch = resolve pin >>= (compressChosen · chain batch) := by
  cases pin with
  | some id => rfl
  | none =>
    refine bind_congr fun choice => ?_
    cases choice <;> rfl

/-- Is it known, without a detection, that states with the given pin compress by `choice`? -/
def Chosen (pin choice : Option BackendId) (p : Host) : Prop :=
  match pin with
  | some id => choice = some id
  | none => p.selection = .detected choice

theorem Chosen.runOn_resolve {p : Host} {pin choice : Option BackendId}
    (chosen : p.Chosen pin choice) : Action.runOn (resolve pin) p = (.ok choice, p) := by
  cases pin with
  | some id =>
    obtain rfl : choice = some id := chosen
    rfl
  | none =>
    have detected : p.selection = .detected choice := chosen
    simp only [resolve, activeBackend, Action.runOn_bind, Action.runOn_get, detected,
      Action.runOn_pure]

theorem selection_of_adopt {p q : Host} {adopted : Option Backend.Instance}
    {choice : Option BackendId} (run : Action.runOn (adopt adopted) p = (.ok choice, q)) :
    q.selection = .detected choice := by
  cases adopted with
  | none =>
    obtain ⟨⟨⟩, rfl⟩ := Prod.mk.inj run
    rfl
  | some i =>
    obtain ⟨⟨⟩, rfl⟩ := Prod.mk.inj run
    rfl

/-- A detection that succeeds selects what it returns. -/
theorem selection_of_detect {p q : Host} {config : Option Config} {choice : Option BackendId}
    (run : Action.runOn (detect config) p = (.ok choice, q)) : q.selection = .detected choice := by
  obtain ⟨config, p₁, -, run⟩ := Action.ok_of_bind run
  dsimp only at run
  split at run
  · obtain ⟨proposed, p₂, -, run⟩ := Action.ok_of_bind run
    split at run
    · obtain ⟨adopted, p₃, -, run⟩ := Action.ok_of_bind run
      exact selection_of_adopt run
    · exact selection_of_adopt run
  · obtain ⟨_, _, failed, -⟩ := Action.ok_of_bind run
    exact nomatch failed

/-- Once resolved, a pin needs no detection any more. -/
theorem chosen_of_resolve {p q : Host} {pin choice : Option BackendId}
    (run : Action.runOn (resolve pin) p = (.ok choice, q)) : q.Chosen pin choice := by
  cases pin with
  | some id =>
    obtain ⟨⟨⟩, rfl⟩ := Prod.mk.inj run
    rfl
  | none =>
    obtain ⟨_, _, ⟨⟩, run⟩ := Action.ok_of_bind run
    cases h : p.selection with
    | undetected =>
      rw [h] at run
      exact selection_of_detect run
    | detected known =>
      rw [h] at run
      obtain ⟨⟨⟩, rfl⟩ := Prod.mk.inj run
      exact h

/-- Is it found out without fail by what states with the given pin compress, and is that lawful?
    A detection may have to be made for it. -/
def Settled (pin : Option BackendId) (p : Host) : Prop :=
  ∃ choice q, Action.runOn (resolve pin) p = (.ok choice, q) ∧ ∀ id ∈ choice, q.LawfulAt id

theorem Chosen.settled {p : Host} {pin choice : Option BackendId} (chosen : p.Chosen pin choice)
    (lawful : ∀ id ∈ choice, p.LawfulAt id) : p.Settled pin :=
  ⟨choice, p, chosen.runOn_resolve, lawful⟩

/-- A pin to a lawful backend is settled, whatever is selected. -/
theorem settled_of_pinned {p : Host} {id : BackendId} {i : Backend.Instance}
    (pinned : p.backends[id]? = some i) (lawful : i.backend.Lawful) : p.Settled (some id) := by
  have chosen : p.Chosen (some id) (some id) := rfl
  refine chosen.settled ?_
  rintro _ ⟨⟩ b hb
  rw [backend?, pinned] at hb
  obtain rfl : i.backend = b := Option.some.inj hb
  exact lawful

/-- A host in which nothing has happened yet detects the vectorized backend. -/
theorem settled_fresh : ({} : Host).Settled none := by
  refine ⟨some 0, _, rfl, ?_⟩
  rintro _ ⟨⟩ b ⟨⟩
  exact Backend.vectorized_lawful 2

theorem SameButOffers.lawfulAt {p q : Host} (same : p.SameButOffers q) {id : BackendId}
    (lawful : p.LawfulAt id) : q.LawfulAt id := by
  unfold LawfulAt
  rw [same.backends]
  exact lawful

theorem SameButOffers.chosen {p q : Host} (same : p.SameButOffers q) {pin choice : Option BackendId}
    (chosen : p.Chosen pin choice) : q.Chosen pin choice := by
  cases pin with
  | some id => exact chosen
  | none => exact same.selection.trans chosen

theorem compressChosen_of_lawful {p : Host} {choice : Option BackendId}
    (lawful : ∀ id ∈ choice, p.LawfulAt id) (chain : Chain) (batch : Batch) :
    (Action.runOn (compressChosen choice chain batch) p).1 = .ok (chain.compress batch) ∧
      p.SameButOffers (Action.runOn (compressChosen choice chain batch) p).2 := by
  cases choice with
  | none => exact ⟨rfl, .refl p⟩
  | some id => exact compressBy_of_lawful (lawful id rfl) chain batch

/-- Whether its backend accepts or declines, and whether it had to be detected first, a settled pin
    compresses as the generic compression does, and stays settled. -/
theorem engine_settled (pin : Option BackendId) : (engine pin).Lawful (Settled pin) := by
  intro chain batch p settled
  obtain ⟨choice, q, run, lawful⟩ := settled
  obtain ⟨outcome, same⟩ := compressChosen_of_lawful lawful chain batch
  rw [engine_eq, Action.runOn_bind, run]
  refine ⟨outcome, ?_⟩
  exact (same.chosen (chosen_of_resolve run)).settled fun id hid => same.lawfulAt (lawful id hid)

/-! ## Lawful hosts -/

/-- Some detection has succeeded, and all backends that are in use, and that a detection may take
    into use, are lawful. -/
structure Lawful (p : Host) : Prop where
  backends : ∀ id, p.LawfulAt id
  candidate : ∀ minBlocks, (p.candidate.build minBlocks).Lawful
  detected : p.selection ≠ .undetected

theorem Lawful.chosen {p : Host} (lawful : p.Lawful) (pin : Option BackendId) :
    ∃ choice, p.Chosen pin choice := by
  cases pin with
  | some id => exact ⟨some id, rfl⟩
  | none =>
    cases h : p.selection with
    | undetected => exact absurd h lawful.detected
    | detected choice => exact ⟨choice, h⟩

theorem SameButOffers.lawful {p q : Host} (same : p.SameButOffers q) (lawful : p.Lawful) :
    q.Lawful where
  backends id := same.lawfulAt (lawful.backends id)
  candidate := by
    rw [same.candidate]
    exact lawful.candidate
  detected := by
    rw [same.selection]
    exact lawful.detected

theorem engine_lawful (pin : Option BackendId) : (engine pin).Lawful Lawful := by
  intro chain batch p lawful
  obtain ⟨choice, chosen⟩ := lawful.chosen pin
  obtain ⟨outcome, same⟩ :=
    compressChosen_of_lawful (fun id (_ : id ∈ choice) => lawful.backends id) chain batch
  rw [engine_eq, Action.runOn_bind, chosen.runOn_resolve]
  exact ⟨outcome, same.lawful lawful⟩

end Host

end Blake2s
