import Mathlib.Data.List.Induction
import Mathlib.Tactic.Common

/-!
# Runs and their histories

A machine consumes one input at a time and emits outputs. A run is the fold of its step over a
finite history of inputs. This file provides the run calculus, the invariant rule, the reading of
the most recent matching item of a history, and the rule which turns a law about the last step into
a law about every prefix of a run.
-/

namespace History

variable {σ ι ο α : Type*}

/-- Consume the inputs in order, collecting the outputs in order. -/
def run (step : σ → ι → σ × List ο) : σ → List ι → σ × List ο
  | state, [] => (state, [])
  | state, input :: inputs =>
      let next := step state input
      let final := run step next.1 inputs
      (final.1, next.2 ++ final.2)

@[simp]
theorem run_nil (step : σ → ι → σ × List ο) (state : σ) : run step state [] = (state, []) := rfl

/-- A run of a concatenation continues where the run of its front stopped. -/
theorem run_append (step : σ → ι → σ × List ο) (state : σ) (front rest : List ι) :
    run step state (front ++ rest) =
      ((run step (run step state front).1 rest).1,
        (run step state front).2 ++ (run step (run step state front).1 rest).2) := by
  induction front generalizing state with
  | nil => rfl
  | cons input front induction =>
      simp only [List.cons_append, run, induction, List.append_assoc]

theorem run_snoc (step : σ → ι → σ × List ο) (state : σ) (front : List ι) (input : ι) :
    run step state (front ++ [input]) =
      ((step (run step state front).1 input).1,
        (run step state front).2 ++ (step (run step state front).1 input).2) := by
  simp [run_append, run]

/-- A relation between states and outputs which every step keeps relates the end of every run to
its outputs. -/
theorem run_invariant {step : σ → ι → σ × List ο} (invariant : σ → List ο → Prop)
    (preserved : ∀ state outputs input, invariant state outputs →
      invariant (step state input).1 (outputs ++ (step state input).2))
    {state : σ} (initial : invariant state []) (inputs : List ι) :
    invariant (run step state inputs).1 (run step state inputs).2 := by
  induction inputs using List.reverseRecOn with
  | nil => exact initial
  | append_singleton front input induction =>
      rw [run_snoc]
      exact preserved _ _ input induction

/-- Two machines whose states stay related, and whose outputs correspond, at every pair of
corresponding inputs, run alike. -/
theorem run_simulate {τ κ ω : Type*} {step : σ → ι → σ × List ο} {other : τ → κ → τ × List ω}
    (related : σ → τ → Prop) (rename : ι → κ) (render : ο → ω)
    (moves : ∀ left right input, related left right →
      related (step left input).1 (other right (rename input)).1 ∧
        (other right (rename input)).2 = (step left input).2.map render)
    {left : σ} {right : τ} (initially : related left right) (inputs : List ι) :
    related (run step left inputs).1 (run other right (inputs.map rename)).1 ∧
      (run other right (inputs.map rename)).2 = (run step left inputs).2.map render := by
  induction inputs generalizing left right with
  | nil => exact ⟨initially, rfl⟩
  | cons input inputs induction =>
      obtain ⟨next, emitted⟩ := moves left right input initially
      obtain ⟨final, later⟩ := induction next
      exact ⟨final, by rw [List.map_cons, run, run, emitted, later, List.map_append]⟩

/-- The most recent item selected from a history. -/
def latest (select : ι → Option α) (history : List ι) : Option α :=
  (history.filterMap select).getLast?

@[simp]
theorem latest_nil (select : ι → Option α) : latest select [] = none := rfl

theorem latest_append (select : ι → Option α) (front rest : List ι) :
    latest select (front ++ rest) = (latest select rest).or (latest select front) := by
  rw [latest, List.filterMap_append, List.getLast?_append, latest, latest]

theorem latest_singleton (select : ι → Option α) (input : ι) :
    latest select [input] = select input := by
  cases selected : select input <;> simp [latest, selected]

/-- The last input is the most recent one, if it is selected at all. -/
@[simp]
theorem latest_snoc (select : ι → Option α) (history : List ι) (input : ι) :
    latest select (history ++ [input]) = (select input).or (latest select history) := by
  rw [latest_append, latest_singleton]

/-- The first input is the most recent selected one only if no later one is selected. -/
theorem latest_cons (select : ι → Option α) (input : ι) (history : List ι) :
    latest select (input :: history) = (latest select history).or (select input) := by
  rw [← List.singleton_append, latest_append, latest_singleton]

theorem exists_of_latest {select : ι → Option α} {history : List ι} {item : α}
    (found : latest select history = some item) : ∃ input ∈ history, select input = some item :=
  List.mem_filterMap.mp (List.mem_of_getLast? found)

/-- A law of prefixes whose last step is characterized holds of all prefixes exactly when every
step of the history meets the characterization. -/
theorem forall_prefix_iff (good : List ι → Prop) (admissible : List ι → ι → Prop)
    (initial : good [])
    (step : ∀ front input, good front → (good (front ++ [input]) ↔ admissible front input))
    (history : List ι) :
    (∀ front, front <+: history → good front) ↔
      ∀ front input, front ++ [input] <+: history → admissible front input := by
  constructor
  · intro goods front input within
    have front_within : front <+: history := (List.prefix_append front [input]).trans within
    exact (step front input (goods front front_within)).mp (goods _ within)
  · intro steps front within
    induction front using List.reverseRecOn with
    | nil => exact initial
    | append_singleton front input induction =>
        have front_within : front <+: history := (List.prefix_append front [input]).trans within
        exact (step front input (induction front_within)).mpr (steps front input within)

/-- Two laws of prefixes which every step keeps equivalent, while both hold, hold of the same
histories. -/
theorem forall_prefix_congr {left right : List ι → Prop} (initially : left [] ∧ right [])
    (step : ∀ front input, left front → right front →
      (left (front ++ [input]) ↔ right (front ++ [input])))
    (history : List ι) :
    (∀ front, front <+: history → left front) ↔ ∀ front, front <+: history → right front := by
  have both : ∀ (law : List ι → Prop),
      (∀ front input, left front → right front → law (front ++ [input]) →
        left (front ++ [input]) ∧ right (front ++ [input])) →
        (∀ front, front <+: history → law front) →
          ∀ front, front <+: history → left front ∧ right front := by
    intro law extend laws front within
    induction front using List.reverseRecOn with
    | nil => exact initially
    | append_singleton front input induction =>
        obtain ⟨on_left, on_right⟩ := induction ((List.prefix_append front [input]).trans within)
        exact extend front input on_left on_right (laws _ within)
  constructor
  · intro lefts front within
    refine (both left ?_ lefts front within).2
    intro front input on_left on_right next
    exact ⟨next, (step front input on_left on_right).mp next⟩
  · intro rights front within
    refine (both right ?_ rights front within).1
    intro front input on_left on_right next
    exact ⟨(step front input on_left on_right).mpr next, next⟩

/-- A step of a longer history is a step of its front or the last one. -/
theorem exists_step_snoc_iff {property : List ι → ι → Prop} {history : List ι} {last : ι} :
    (∃ front input, front ++ [input] <+: history ++ [last] ∧ property front input) ↔
      (∃ front input, front ++ [input] <+: history ∧ property front input) ∨
        property history last := by
  constructor
  · rintro ⟨front, input, within, holds⟩
    rcases List.prefix_concat_iff.mp within with whole | within
    · obtain ⟨rfl, same⟩ := List.append_inj' whole rfl
      rw [List.singleton_inj] at same
      exact Or.inr (same ▸ holds)
    · exact Or.inl ⟨front, input, within, holds⟩
  · rintro (⟨front, input, within, holds⟩ | holds)
    · exact ⟨front, input, within.trans (List.prefix_append history [last]), holds⟩
    · exact ⟨history, last, List.prefix_rfl, holds⟩

/-! ## Steps which may be disabled or fail -/

/-- What histories of enabled inputs end in, if no step fails. -/
inductive Reaches (enabled : σ → ι → Prop) (step : σ → ι → Option σ) (initial : σ) :
    List ι → Option σ → Prop where
  | start : Reaches enabled step initial [] (some initial)
  | step {history : List ι} {state : σ} {input : ι}
      (reached : Reaches enabled step initial history (some state))
      (possible : enabled state input) :
      Reaches enabled step initial (history ++ [input]) (step state input)

theorem reaches_nil_iff {enabled : σ → ι → Prop} {step : σ → ι → Option σ} {initial : σ}
    {outcome : Option σ} : Reaches enabled step initial [] outcome ↔ outcome = some initial := by
  constructor
  · intro reaches
    generalize whole : ([] : List ι) = inputs at reaches
    cases reaches with
    | start => rfl
    | step reached possible => exact absurd whole.symm (by simp)
  · rintro rfl
    exact .start

/-- A history ends in what its last input makes of the state in front of it. -/
theorem reaches_snoc_iff {enabled : σ → ι → Prop} {step : σ → ι → Option σ} {initial : σ}
    {history : List ι} {input : ι} {outcome : Option σ} :
    Reaches enabled step initial (history ++ [input]) outcome ↔
      ∃ state, Reaches enabled step initial history (some state) ∧ enabled state input ∧
        outcome = step state input := by
  constructor
  · intro reaches
    generalize whole : history ++ [input] = inputs at reaches
    cases reaches with
    | start => exact absurd whole (by simp)
    | step reached possible =>
        obtain ⟨rfl, same⟩ := List.append_inj' whole rfl
        rw [List.singleton_inj] at same
        exact ⟨_, reached, same ▸ possible, by rw [same]⟩
  · rintro ⟨state, reached, possible, rfl⟩
    exact .step reached possible

theorem Reaches.next {enabled : σ → ι → Prop} {step : σ → ι → Option σ} {initial state next : σ}
    {history : List ι} (reached : Reaches enabled step initial history (some state)) (input : ι)
    (possible : enabled state input) (stepped : step state input = some next) :
    Reaches enabled step initial (history ++ [input]) (some next) :=
  stepped ▸ .step reached possible

/-- A relation between histories and states which enabled steps keep, without failing, relates every
history to what it ends in. -/
theorem Reaches.invariant {enabled : σ → ι → Prop} {step : σ → ι → Option σ} {initial : σ}
    (invariant : List ι → σ → Prop) (initially : invariant [] initial)
    (preserved : ∀ history state input, Reaches enabled step initial history (some state) →
      invariant history state → enabled state input →
        ∃ next, step state input = some next ∧ invariant (history ++ [input]) next)
    {history : List ι} {outcome : Option σ}
    (reaches : Reaches enabled step initial history outcome) :
    ∃ state, outcome = some state ∧ invariant history state := by
  induction reaches with
  | start => exact ⟨initial, rfl, initially⟩
  | step reached possible induction =>
      obtain ⟨same, found, holds⟩ := induction
      obtain rfl := Option.some_inj.mp found
      exact preserved _ _ _ reached holds possible

/-! ## Steps with outputs -/

/-- Histories of enabled inputs whose steps do not fail, with their outputs in order and what they
end in. -/
inductive Emits (enabled : σ → ι → Prop) (step : σ → ι → Option (σ × List ο)) (initial : σ) :
    List ι → List ο → σ → Prop where
  | start : Emits enabled step initial [] [] initial
  | step {history : List ι} {outputs emitted : List ο} {state next : σ} {input : ι}
      (emits : Emits enabled step initial history outputs state) (possible : enabled state input)
      (stepped : step state input = some (next, emitted)) :
      Emits enabled step initial (history ++ [input]) (outputs ++ emitted) next

namespace Emits

variable {enabled : σ → ι → Prop} {step : σ → ι → Option (σ × List ο)} {initial : σ}

/-- A relation which enabled steps keep relates every history and its outputs to what it ends in. -/
theorem invariant (invariant : List ι → List ο → σ → Prop) (initially : invariant [] [] initial)
    (preserved : ∀ history outputs state input next emitted,
      Emits enabled step initial history outputs state → invariant history outputs state →
        enabled state input → step state input = some (next, emitted) →
          invariant (history ++ [input]) (outputs ++ emitted) next)
    {history : List ι} {outputs : List ο} {state : σ}
    (emits : Emits enabled step initial history outputs state) :
    invariant history outputs state := by
  induction emits with
  | start => exact initially
  | step emits possible stepped induction =>
      exact preserved _ _ _ _ _ _ emits induction possible stepped

/-- A history may be continued by one from where it ends. -/
theorem append {front rest : List ι} {earlier later : List ο} {middle final : σ}
    (first : Emits enabled step initial front earlier middle)
    (second : Emits enabled step middle rest later final) :
    Emits enabled step initial (front ++ rest) (earlier ++ later) final := by
  induction second with
  | start => simpa using first
  | step emits possible stepped induction =>
      rw [← List.append_assoc, ← List.append_assoc]
      exact induction.step possible stepped

/-- A part of the state which every step moves as a machine of its own does, or not at all, ends
where the run of that machine ends, and its outputs are those of that run. -/
theorem project {τ κ ω : Type*} (machine : τ → κ → τ × List ω) (view : σ → τ)
    (input : ι → Option κ) (output : ο → Option ω)
    (moves : ∀ history outputs state item next emitted,
      Emits enabled step initial history outputs state → enabled state item →
        step state item = some (next, emitted) →
          run machine (view state) (input item).toList = (view next, emitted.filterMap output))
    {history : List ι} {outputs : List ο} {final : σ}
    (emits : Emits enabled step initial history outputs final) :
    run machine (view initial) (history.filterMap input) =
      (view final, outputs.filterMap output) := by
  induction emits with
  | start => rfl
  | @step history outputs emitted state next item emits possible stepped induction =>
      have last : [item].filterMap input = (input item).toList := by
        cases selected : input item <;> simp [selected]
      rw [List.filterMap_append, List.filterMap_append, run_append, induction, last,
        moves _ _ _ _ _ _ emits possible stepped]

/-- What is enabled under a condition is enabled under a weaker one. -/
theorem mono {weaker : σ → ι → Prop} (weakens : ∀ state input, enabled state input →
      weaker state input) {history : List ι} {outputs : List ο} {state : σ}
    (emits : Emits enabled step initial history outputs state) :
    Emits weaker step initial history outputs state := by
  induction emits with
  | start => exact .start
  | step emits possible stepped induction => exact induction.step (weakens _ _ possible) stepped

/-- What all inputs of a history have in common may be taken as a condition on its steps. -/
theorem of_forall {property : ι → Prop} {history : List ι} {outputs : List ο} {state : σ}
    (emits : Emits enabled step initial history outputs state)
    (all : ∀ input ∈ history, property input) :
    Emits (fun state input => enabled state input ∧ property input) step initial history outputs
      state := by
  induction emits with
  | start => exact .start
  | step emits possible stepped induction =>
      obtain ⟨earlier, last⟩ := List.forall_mem_append.mp all
      exact (induction earlier).step ⟨possible, List.forall_mem_singleton.mp last⟩ stepped

/-- One enabled step is a history. -/
theorem single {input : ι} {next : σ} {emitted : List ο} (possible : enabled initial input)
    (stepped : step initial input = some (next, emitted)) :
    Emits enabled step initial [input] emitted next :=
  start.step possible stepped

/-- A machine whose every step is, on a view of its state, a history of another machine with the
same outputs is on the whole a history of that machine; with a relation which the steps keep. -/
theorem simulate {τ κ : Type*} {inner_enabled : τ → κ → Prop}
    {inner_step : τ → κ → Option (τ × List ο)} (view : σ → τ)
    (relation : List ι → List κ → σ → Prop) (initially : relation [] [] initial)
    (moves : ∀ history outputs state item next emitted inputs,
      Emits enabled step initial history outputs state →
        Emits inner_enabled inner_step (view initial) inputs outputs (view state) →
          relation history inputs state → enabled state item →
            step state item = some (next, emitted) →
              ∃ more, Emits inner_enabled inner_step (view state) more emitted (view next) ∧
                relation (history ++ [item]) (inputs ++ more) next)
    {history : List ι} {outputs : List ο} {final : σ}
    (emits : Emits enabled step initial history outputs final) :
    ∃ inputs, Emits inner_enabled inner_step (view initial) inputs outputs (view final) ∧
      relation history inputs final := by
  induction emits with
  | start => exact ⟨[], .start, initially⟩
  | step emits possible stepped induction =>
      obtain ⟨inputs, inner, related⟩ := induction
      obtain ⟨more, further, kept⟩ :=
        moves _ _ _ _ _ _ _ emits inner related possible stepped
      exact ⟨inputs ++ more, inner.append further, kept⟩

end Emits

/-! ## Execution -/

section Execute

variable (enabled : σ → ι → Prop) [∀ state input, Decidable (enabled state input)]
  (step : σ → ι → Option (σ × List ο))

/-- Execute a list of inputs with its outputs, if all are enabled and no step fails. -/
def execute (initial : σ) : List ι → Option (List ο × σ)
  | [] => some ([], initial)
  | input :: history =>
      if enabled initial input then do
        let (next, emitted) ← step initial input
        let (outputs, final) ← execute next history
        return (emitted ++ outputs, final)
      else
        none

variable {enabled step}

/-- What is executed is a history. -/
theorem emits_of_execute {initial final : σ} {history : List ι} {outputs : List ο}
    (executed : execute enabled step initial history = some (outputs, final)) :
    Emits enabled step initial history outputs final := by
  induction history generalizing initial outputs with
  | nil =>
      obtain ⟨rfl, rfl⟩ := Prod.mk.inj (Option.some_inj.mp executed)
      exact .start
  | cons input history induction =>
      rw [execute, Option.ite_none_right_eq_some] at executed
      obtain ⟨possible, ran⟩ := executed
      obtain ⟨⟨next, emitted⟩, stepped, later⟩ := Option.bind_eq_some_iff.mp ran
      obtain ⟨⟨rest, last⟩, continued, done⟩ := Option.bind_eq_some_iff.mp later
      obtain ⟨rfl, rfl⟩ := Prod.mk.inj (Option.some_inj.mp done)
      exact (Emits.single possible stepped).append (induction continued)

end Execute

end History
