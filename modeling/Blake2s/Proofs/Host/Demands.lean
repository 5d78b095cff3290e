import Blake2s.Proofs.Host.Resolving

set_option autoImplicit false

/-! # Demands for the backend

A host looks for its backend on three occasions: when it is told to, when it is asked for the active
backend, and when a state without a pin compresses. Each time is a `Demand`, and a demand may have the
detection run. `Noted` is a host with a record of the demands on it. What is done with it is what is
done with a host, step by step, and a note is added wherever the host looks for its backend; the
outcomes and the hosts are the same (`Noted.alike_engine`).

The record tells everything about the selection (`Noted.Tells`). The selection is what the latest run
that succeeded has returned, and a demand that is not a call has the detection run exactly as long as
none has succeeded. -/

namespace Blake2s

/-- An occasion on which a host looks for its backend. -/
inductive Occasion where
  /-- It is told to detect the backend. -/
  | call (config : Option Config)
  /-- It is asked for the active backend. -/
  | question
  /-- A state without a pin compresses. -/
  | compression

structure Demand where
  occasion : Occasion
  /-- The outcome of the detection that was run, if one was. -/
  run : Option (Except Fault (Option BackendId))

/-- The selection after a demand. Only a run that succeeds changes it. -/
def Selection.meet (selection : Selection) (d : Demand) : Selection :=
  match d.run with
  | some (.ok id) => .detected id
  | some (.error _) | none => selection

/-- The selection after demands: what the latest run has returned that succeeded. -/
def Selection.after (start : Selection) (demands : List Demand) : Selection :=
  demands.foldl meet start

theorem Selection.after_append (start : Selection) (earlier later : List Demand) :
    start.after (earlier ++ later) = (start.after earlier).after later :=
  List.foldl_append

/-- Once something is selected, something stays selected. -/
theorem Selection.after_ne_undetected {start : Selection} (h : start ≠ .undetected)
    (demands : List Demand) : start.after demands ≠ .undetected := by
  induction demands generalizing start with
  | nil => exact h
  | cons d demands ih =>
    refine ih ?_
    unfold meet
    split
    · exact nofun
    · exact h
    · exact h

/-- A demand has the detection run if it is a call, or if nothing is selected yet, and else not. -/
def Demand.Due (selection : Selection) (d : Demand) : Prop :=
  d.run ≠ none ↔ (∃ config, d.occasion = .call config) ∨ selection = .undetected

/-- The detection was run exactly when it was due. -/
def Timely (start : Selection) (demands : List Demand) : Prop :=
  ∀ earlier d later, demands = earlier ++ d :: later → d.Due (start.after earlier)

namespace Timely

variable {start : Selection} {l l' : List Demand} {d : Demand}

theorem nil (start : Selection) : Timely start [] := by
  intro earlier d later h
  exact absurd h (by simp)

theorem singleton (due : d.Due start) : Timely start [d] := by
  intro earlier d' later h
  cases earlier with
  | nil =>
    obtain ⟨rfl, -⟩ := List.cons.inj h
    exact due
  | cons _ earlier => exact absurd (List.cons.inj h).2 (by simp)

theorem append (first : Timely start l) (second : Timely (start.after l) l') :
    Timely start (l ++ l') := by
  intro earlier d later h
  -- the demand is in the second list, after `between`, or else in the first one
  obtain ⟨between, rfl, rfl⟩ | ⟨between, rfl, rest⟩ := List.append_eq_append_iff.mp h
  · rw [Selection.after_append]
    exact second between d later rfl
  · cases between with
    | nil =>
      rw [List.append_nil] at second
      exact second [] d later rest.symm
    | cons _ between =>
      obtain ⟨rfl, -⟩ := List.cons.inj rest
      exact first earlier d between rfl

end Timely

/-! ## Hosts with a record -/

/-- A host, and the demands on it, oldest first. -/
structure Noted where
  host : Host
  demands : List Demand := []

abbrev NotedM := ExceptT Fault (StateM Noted)

namespace Noted

/-- An operation on the host in which it does not look for its backend. -/
def quietly {α : Type} (op : HostM α) : NotedM α := ExceptT.mk do
  let n ← get
  let (outcome, host) := op.run.run n.host
  set { n with host }
  return outcome

/-- Detects the backend. -/
def detect (occasion : Occasion) (config : Option Config) : NotedM (Option BackendId) :=
  ExceptT.mk do
    let n ← get
    let (outcome, host) := (Host.detect config).run.run n.host
    set ({ host, demands := n.demands ++ [{ occasion, run := some outcome }] } : Noted)
    return outcome

/-- The selected backend. It is detected if no detection has succeeded yet. -/
def activeBackend (occasion : Occasion) : NotedM (Option BackendId) := do
  match (← get).host.selection with
  | .detected id =>
    modify fun n => { n with demands := n.demands ++ [{ occasion, run := none }] }
    return id
  | .undetected => detect occasion none

/-- The engine of a state that is pinned to a backend, or that uses the selected one. -/
def engine (pin : Option BackendId) : Engine Noted := fun chain batch => do
  let id ← match pin with
    | some id => pure (some id)
    | none => activeBackend .compression
  match id with
  | some id => quietly (Host.compressBy id chain batch)
  | none => return chain.compress batch

variable {α : Type} {p q : Host} {n : Noted} {pin : Option BackendId}

theorem runOn_quietly (op : HostM α) (n : Noted) :
    Action.runOn (quietly op) n
      = ((Action.runOn op n.host).1, { n with host := (Action.runOn op n.host).2 }) := rfl

theorem runOn_detect (occasion : Occasion) (config : Option Config) (n : Noted) :
    Action.runOn (detect occasion config) n
      = let run := Action.runOn (Host.detect config) n.host
        (run.1, { host := run.2, demands := n.demands ++ [{ occasion, run := some run.1 }] }) := rfl

/-- The demand on a host when its active backend is looked up. -/
def lookup (p : Host) (occasion : Occasion) : Demand where
  occasion
  run := match p.selection with
    | .detected _ => none
    | .undetected => some (Action.runOn (Host.detect none) p).1

/-- **One demand for the active backend**, and nothing else that the host would not do. -/
theorem runOn_activeBackend (occasion : Occasion) (n : Noted) :
    Action.runOn (activeBackend occasion) n
      = let run := Action.runOn Host.activeBackend n.host
        (run.1, { host := run.2, demands := n.demands ++ [lookup n.host occasion] }) := by
  rw [Host.runOn_activeBackend, activeBackend, Action.runOn_bind, Action.runOn_get, lookup]
  cases known : n.host.selection with
  | detected id =>
    dsimp only
    rw [known]
    rfl
  | undetected =>
    dsimp only
    rw [known]
    exact runOn_detect occasion none n

/-- **One demand for a compression without a pin, none for one with a pin**, and nothing else that the
    engine of the host would not do. -/
theorem runOn_engine (pin : Option BackendId) (chain : Chain) (batch : Batch) (n : Noted) :
    Action.runOn (engine pin chain batch) n
      = let run := Action.runOn (Host.engine pin chain batch) n.host
        (run.1, { host := run.2,
                  demands := n.demands ++ pin.elim [lookup n.host .compression] fun _ => [] }) := by
  cases pin with
  | some id =>
    rw [Option.elim_some, List.append_nil]
    exact runOn_quietly (Host.compressBy id chain batch) n
  | none =>
    rw [Host.engine_eq, engine, Action.runOn_bind, Action.runOn_bind, runOn_activeBackend,
      Option.elim_none, Host.resolve]
    rcases Action.runOn Host.activeBackend n.host with ⟨fault | choice, q⟩
    · rfl
    · cases choice with
      | none => rfl
      | some id => exact runOn_quietly (Host.compressBy id chain batch) _

/-! ## What the record tells -/

/-- The record is that of a host whose selection was `start` at first, and which may have looked for
    its backend on some occasions only. -/
structure Tells (start : Selection) (may : Occasion → Prop) (n : Noted) (p : Host) : Prop where
  host : n.host = p
  selection : p.selection = start.after n.demands
  timely : Timely start n.demands
  may : ∀ d ∈ n.demands, may d.occasion

variable {start : Selection} {may : Occasion → Prop}

theorem Tells.first (p : Host) (may : Occasion → Prop) :
    Tells p.selection may { host := p } p :=
  ⟨rfl, rfl, .nil _, nofun⟩

/-- One more demand. -/
theorem Tells.note (tells : Tells start may n p) {d : Demand} (here : may d.occasion)
    (due : d.Due p.selection) (met : q.selection = p.selection.meet d) :
    Tells start may { host := q, demands := n.demands ++ [d] } q where
  host := rfl
  selection := by
    rw [Selection.after_append, ← tells.selection]
    exact met
  timely := by
    refine tells.timely.append (.singleton ?_)
    rw [← tells.selection]
    exact due
  may e he := by
    rcases List.mem_append.mp he with old | new
    · exact tells.may e old
    · rw [List.mem_singleton.mp new]
      exact here

theorem alike_quietly {op : HostM α}
    (kept : ∀ p, (Action.runOn op p).2.selection = p.selection) :
    Action.Alike (Tells start may) (quietly op) op := by
  intro n p tells
  rw [runOn_quietly, tells.host]
  exact ⟨rfl, rfl, (kept p).trans tells.selection, tells.timely, tells.may⟩

/-- A run meets its demand, whether it succeeds or fails. -/
theorem selection_of_run (config : Option Config) (occasion : Occasion) (p : Host) :
    let run := Action.runOn (Host.detect config) p
    run.2.selection = p.selection.meet { occasion, run := some run.1 } := by
  rcases run : Action.runOn (Host.detect config) p with ⟨fault | id, q⟩
  · exact (Host.sameButLog_of_detect_error run).selection
  · exact Host.selection_of_detect run

theorem alike_detect {config : Option Config} (here : may (.call config)) :
    Action.Alike (Tells start may) (detect (.call config) config) (Host.detect config) := by
  intro n p tells
  rw [runOn_detect, tells.host]
  refine ⟨rfl, tells.note here ?_ (selection_of_run config (.call config) p)⟩
  exact iff_of_true nofun (.inl ⟨config, rfl⟩)

theorem due_lookup {occasion : Occasion} (lazy : ∀ config, occasion ≠ .call config) (p : Host) :
    (lookup p occasion).Due p.selection := by
  unfold Demand.Due lookup
  cases p.selection with
  | undetected => exact iff_of_true nofun (.inr rfl)
  | detected id =>
    refine iff_of_false (fun run => run rfl) ?_
    rintro (⟨config, call⟩ | undetected)
    · exact lazy config call
    · exact nomatch undetected

theorem selection_of_lookup (p : Host) (occasion : Occasion) :
    (Action.runOn Host.activeBackend p).2.selection = p.selection.meet (lookup p occasion) := by
  rw [Host.runOn_activeBackend, lookup]
  cases known : p.selection with
  | detected id => exact known
  | undetected =>
    have run := selection_of_run none occasion p
    rw [known] at run
    exact run

theorem alike_activeBackend {occasion : Occasion} (lazy : ∀ config, occasion ≠ .call config)
    (here : may occasion) :
    Action.Alike (Tells start may) (activeBackend occasion) Host.activeBackend := by
  intro n p tells
  rw [runOn_activeBackend, tells.host]
  exact ⟨rfl, tells.note here (due_lookup lazy p) (selection_of_lookup p occasion)⟩

theorem selection_of_compressChosen (choice : Option BackendId) (chain : Chain) (batch : Batch)
    (p : Host) : (Action.runOn (Host.compressChosen choice chain batch) p).2.selection
      = p.selection := by
  obtain ⟨chain', q, run, same⟩ := Host.runOn_compressChosen choice chain batch p
  rw [run]
  exact same.selection

/-- **To note the demands changes nothing**, and the notes tell what is selected. -/
theorem alike_engine (pin : Option BackendId) (here : pin = none → may .compression) :
    Engine.Alike (Tells start may) (engine pin) (Host.engine pin) := by
  intro chain batch n p tells
  rw [runOn_engine, tells.host]
  refine ⟨rfl, ?_⟩
  have engine := Host.engine_eq pin chain batch
  cases pin with
  | some id =>
    have kept := selection_of_compressChosen (some id) chain batch p
    rw [Option.elim_some, List.append_nil]
    exact ⟨rfl, kept.trans tells.selection, tells.timely, tells.may⟩
  | none =>
    have lazy (config : Option Config) : Occasion.compression ≠ .call config := nofun
    refine tells.note (here rfl) (due_lookup lazy p) ?_
    -- the compression itself comes after the lookup, and selects nothing
    rw [← selection_of_lookup p .compression, engine, Action.runOn_bind, Host.resolve]
    rcases Action.runOn Host.activeBackend p with ⟨fault | choice, q⟩
    · rfl
    · exact selection_of_compressChosen choice chain batch q

end Noted

end Blake2s
