import Mathlib.Tactic.Lemma
import StoreSync.Expression.Table
import StoreSync.Reconcile

/-!
# What a planner asks

`Policy.expressions` lists the expressions of a policy: those of its four conditions, the three
lists of every attribute and the one for identifiers.  Planning reaches them from many places, and
an attribute by any spelling of its name.  Nothing else is ever asked: two evaluators that agree on
the list lead every planner through the same questions to the same result, however they differ
elsewhere (`Reconciler.inStep_of_expressions`).  A policy with an empty list therefore plans without
its evaluator.

`Asked.Shared` is the relation between the two computations that carries the proof.  It is kept when
computations are put one after the other (`Asked.Shared.bind`), it holds of a question about an
expression of the list, and each planner is put together of these.
-/

namespace StoreSync

/-- The expression that a question is about. -/
def EvaluatorCall.expression : EvaluatorCall → String
  | .bool e _ => e
  | .texts e _ => e

namespace Evaluator

/-- The same answers about some expressions, whatever is bound. -/
structure AgreeOn (expressions : List String) (ev ev' : Evaluator) : Prop where
  evalBool : ∀ e ∈ expressions, ∀ b, ev.evalBool e b = ev'.evalBool e b
  evalTexts : ∀ e ∈ expressions, ∀ b, ev.evalTexts e b = ev'.evalTexts e b

/-- The evaluator that gives one error for all answers. -/
def failing (e : SyncError) : Evaluator where
  evalBool _ _ := .error e
  evalTexts _ _ := .error e

lemma agreeOn_nil (ev ev' : Evaluator) : AgreeOn [] ev ev' := ⟨by simp, by simp⟩

end Evaluator

/-! ## Computations in step -/

namespace Asked

variable {α β : Type} {es : List String}

/-- One result, by one row of questions, all of them about the expressions of a list. -/
structure Shared (es : List String) (x x' : Asked α) : Prop where
  eq : x = x'
  within : ∀ c ∈ x.calls, c.expression ∈ es

lemma Shared.pure (a : α) : Shared es (pure a) (pure a : Asked α) :=
  ⟨rfl, fun _ hc => (List.not_mem_nil hc).elim⟩

lemma Shared.fail (e : SyncError) : Shared es (fail e) (fail e : Asked α) :=
  ⟨rfl, fun _ hc => (List.not_mem_nil hc).elim⟩

/-- An error asks no more; a result goes on with the questions of what follows. -/
lemma Shared.bind {x x' : Asked α} {f f' : α → Asked β} (hx : Shared es x x')
    (hf : ∀ a, Shared es (f a) (f' a)) : Shared es (x >>= f) (x' >>= f') := by
  obtain ⟨rfl, hwithin⟩ := hx
  have hff : f = f' := funext fun a => (hf a).eq
  refine ⟨by rw [hff], fun c hc => ?_⟩
  have hcalls : c ∈ (andThen x f).calls := hc
  unfold andThen at hcalls
  split at hcalls
  next a _ =>
    rcases List.mem_append.1 hcalls with hc | hc
    · exact hwithin c hc
    · exact (hf a).within c hc
  next => exact hwithin c hcalls

lemma Shared.map {x x' : Asked α} (hx : Shared es x x') (f : α → β) :
    Shared es (do return f (← x)) (do return f (← x')) :=
  hx.bind fun a => .pure (f a)

end Asked

open Asked (Shared)

/-! ## The expressions of a policy -/

namespace Policy

variable {p : Policy} {e : String}

lemma mem_expressions_of_condition {m : Modification} (h : p.conditions.of m = .expression e) :
    e ∈ p.expressions := by
  have hm : m ∈ Modification.all := by cases m <;> decide
  refine List.mem_append_left _ (List.mem_append_left _ (List.mem_filterMap.2 ⟨m, hm, ?_⟩))
  rw [h]
  rfl

/-- The policy that a look-up finds is one of the policy's, under whatever spelling. -/
lemma mem_expressions_of_attribute {name : String} {a : AttributePolicy}
    (h : p.attribute? name = some a) (he : e ∈ a.expressions) : e ∈ p.expressions := by
  obtain ⟨entry, hfind, rfl⟩ := Option.map_eq_some_iff.1 h
  have hvalue : entry.2 ∈ p.attributes.values :=
    List.mem_map_of_mem (List.mem_of_find?_eq_some hfind)
  exact List.mem_append_left _ (List.mem_append_right _ (List.mem_flatMap.2 ⟨_, hvalue, he⟩))

lemma mem_expressions_of_identifier (h : p.identifier.expression = some e) : e ∈ p.expressions :=
  List.mem_append_right _ (by simp [h])

end Policy

/-! ## Planning -/

namespace Reconciler

/-- Two planners that go through the same questions to the same results, for all records; the
questions are about the expressions of a list. -/
structure InStep (es : List String) (r r' : Reconciler) : Prop where
  prepareSource : ∀ s, Shared es (r.prepareSource s) (r'.prepareSource s)
  resolveIdentifier : ∀ s, Shared es (r.resolveIdentifier s) (r'.resolveIdentifier s)
  computeChange : ∀ s d, Shared es (r.computeChange s d) (r'.computeChange s d)
  planCreate : ∀ s, Shared es (r.planCreate s) (r'.planCreate s)
  planUpdate : ∀ s d, Shared es (r.planUpdate s d) (r'.planUpdate s d)
  planRename : ∀ s d, Shared es (r.planRename s d) (r'.planRename s d)
  planDelete : ∀ id d, Shared es (r.planDelete id d) (r'.planDelete id d)

section Planners

variable {p : Policy} {ev ev' : Evaluator} {es : List String} {b : Bindings} {name : String}

lemma shared_askTexts (h : ev.AgreeOn es ev') {e : String} (he : e ∈ es) :
    Shared es (ev.askTexts e b) (ev'.askTexts e b) where
  eq := by rw [Evaluator.askTexts, Evaluator.askTexts, h.evalTexts e he]
  within := by
    intro c hc
    rw [List.mem_singleton.1 hc]
    exact he

lemma shared_askBool (h : ev.AgreeOn es ev') {e : String} (he : e ∈ es) :
    Shared es (ev.askBool e b) (ev'.askBool e b) where
  eq := by rw [Evaluator.askBool, Evaluator.askBool, h.evalBool e he]
  within := by
    intro c hc
    rw [List.mem_singleton.1 hc]
    exact he

lemma shared_expand (h : ev.AgreeOn es ev') {expressions : List String}
    (hes : ∀ e ∈ expressions, e ∈ es) :
    Shared es (expand ⟨p, ev⟩ expressions b) (expand ⟨p, ev'⟩ expressions b) := by
  induction expressions with
  | nil => exact .pure []
  | cons e rest ih =>
    refine (shared_askTexts h (hes e List.mem_cons_self)).bind fun texts => ?_
    exact (ih fun x hx => hes x (List.mem_cons_of_mem _ hx)).map _

lemma shared_extendValues (h : ev.AgreeOn es ev') {expressions : List String}
    (hes : ∀ e ∈ expressions, e ∈ es) (status : AttributeStatus) (vs : List AttributeValue) :
    Shared es (extendValues ⟨p, ev⟩ status expressions b vs)
      (extendValues ⟨p, ev'⟩ status expressions b vs) := by
  unfold extendValues
  split
  · exact (shared_expand h hes).map _
  · exact .pure vs

variable (h : ev.AgreeOn p.expressions ev')
include h

lemma shared_isAllowed (m : Modification) :
    Shared p.expressions (isAllowed ⟨p, ev⟩ m b) (isAllowed ⟨p, ev'⟩ m b) := by
  show Shared p.expressions ((p.conditions.of m).evaluate ev b) ((p.conditions.of m).evaluate ev' b)
  cases hc : p.conditions.of m with
  | always => exact .pure true
  | never => exact .pure false
  | expression e => exact shared_askBool h (Policy.mem_expressions_of_condition hc)

lemma shared_ownValues (vs : List AttributeValue) :
    Shared p.expressions (ownValues ⟨p, ev⟩ name vs b) (ownValues ⟨p, ev'⟩ name vs b) := by
  unfold ownValues
  cases ha : p.attribute? name with
  | none => exact .pure vs
  | some a =>
    dsimp only
    split
    · exact .pure vs
    · exact shared_expand h fun e he =>
        Policy.mem_expressions_of_attribute ha (by simp [AttributePolicy.expressions, he])

/-! ### Identifiers -/

lemma shared_resolveIdentifier (s : Entity) :
    Shared p.expressions (resolveIdentifier ⟨p, ev⟩ s) (resolveIdentifier ⟨p, ev'⟩ s) := by
  unfold resolveIdentifier
  dsimp only
  split
  next e he =>
    refine (shared_askTexts h (Policy.mem_expressions_of_identifier he)).bind fun texts => ?_
    cases texts with
    | nil => exact .fail _
    | cons relative _ => exact .pure _
  next =>
    -- A unique attribute is looked up in the record; there is nothing to ask.
    split
    · split
      · split <;> exact .pure _
      · exact .pure _
    · exact .pure _

lemma shared_prepareSource (s : Entity) :
    Shared p.expressions (prepareSource ⟨p, ev⟩ s) (prepareSource ⟨p, ev'⟩ s) := by
  unfold prepareSource
  split
  · exact .pure s
  · refine (shared_resolveIdentifier h s).bind fun id => ?_
    cases id with
    | none => exact .pure s
    | some id => exact .pure _

/-! ### Attributes -/

lemma shared_createOperation (s : Entity) (name : String) :
    Shared p.expressions (createOperation ⟨p, ev⟩ s name) (createOperation ⟨p, ev'⟩ s name) := by
  unfold createOperation
  refine (shared_ownValues h _).bind fun vs => ?_
  cases ha : p.attribute? name with
  | none => exact .pure _
  | some a =>
    have hcreate : ∀ e ∈ a.createValues, e ∈ p.expressions := fun e he =>
      Policy.mem_expressions_of_attribute ha (by simp [AttributePolicy.expressions, he])
    have hdefault : ∀ e ∈ a.defaultValues, e ∈ p.expressions := fun e he =>
      Policy.mem_expressions_of_attribute ha (by simp [AttributePolicy.expressions, he])
    refine (shared_extendValues h hcreate _ vs).bind fun vs => ?_
    exact (shared_extendValues h hdefault _ vs).map _

lemma shared_wantedValues (s d : Entity) (name : String) :
    Shared p.expressions (wantedValues ⟨p, ev⟩ s d name) (wantedValues ⟨p, ev'⟩ s d name) := by
  unfold wantedValues
  refine (shared_ownValues h _).bind fun vs => ?_
  cases ha : p.attribute? name with
  | none => exact .pure _
  | some a =>
    have hdefault : ∀ e ∈ a.defaultValues, e ∈ p.expressions := fun e he =>
      Policy.mem_expressions_of_attribute ha (by simp [AttributePolicy.expressions, he])
    exact (shared_extendValues h hdefault _ _).map _

lemma shared_updateOperation (s d : Entity) (name : String) :
    Shared p.expressions (updateOperation ⟨p, ev⟩ s d name)
      (updateOperation ⟨p, ev'⟩ s d name) := by
  unfold updateOperation
  dsimp only
  split
  · exact .pure none
  · exact (shared_wantedValues h s d name).map _

omit h in
lemma shared_collectOperations {plan plan' : String → Asked (Option AttributeOperation)}
    (hplan : ∀ n, Shared es (plan n) (plan' n)) (names : List String) :
    Shared es (collectOperations plan names) (collectOperations plan' names) := by
  induction names with
  | nil => exact .pure []
  | cons n rest ih => exact (hplan n).bind fun op => ih.map _

/-! ### Changes -/

lemma shared_planCreate (s : Entity) :
    Shared p.expressions (planCreate ⟨p, ev⟩ s) (planCreate ⟨p, ev'⟩ s) := by
  -- What is planned once the identifier is known.
  have hrest : ∀ id : String, Shared p.expressions
      (do
        let ops ← collectOperations (createOperation ⟨p, ev⟩ s) (p.writeScope (some s))
        let allowed ← isAllowed ⟨p, ev⟩ .create (.ofSource s)
        return (⟨.create id ops, allowed⟩ : PlannedChange))
      (do
        let ops ← collectOperations (createOperation ⟨p, ev'⟩ s) (p.writeScope (some s))
        let allowed ← isAllowed ⟨p, ev'⟩ .create (.ofSource s)
        return ⟨.create id ops, allowed⟩) := fun id =>
    (shared_collectOperations (shared_createOperation h s) _).bind fun ops =>
      (shared_isAllowed h .create).map _
  unfold planCreate
  cases s.identifier with
  | some id => exact (Shared.pure id).bind hrest
  | none =>
    refine (shared_resolveIdentifier h s).bind fun id => ?_
    cases id with
    | none => exact (Shared.fail _).bind hrest
    | some id => exact (Shared.pure id).bind hrest

omit h in
lemma shared_destinationIdentifier (d : Entity) :
    Shared es (destinationIdentifier d) (destinationIdentifier d) := by
  unfold destinationIdentifier
  split
  · exact .pure _
  · exact .fail _

lemma shared_planUpdate (s d : Entity) :
    Shared p.expressions (planUpdate ⟨p, ev⟩ s d) (planUpdate ⟨p, ev'⟩ s d) := by
  unfold planUpdate
  refine (shared_collectOperations (shared_updateOperation h s d) _).bind fun ops => ?_
  split
  · exact .pure none
  · exact (shared_destinationIdentifier d).bind fun id => (shared_isAllowed h .update).map _

lemma shared_planRename (s d : Entity) :
    Shared p.expressions (planRename ⟨p, ev⟩ s d) (planRename ⟨p, ev'⟩ s d) := by
  unfold planRename
  refine (shared_destinationIdentifier d).bind fun old => ?_
  cases s.identifier with
  | none => exact .fail _
  | some new => exact (shared_isAllowed h .rename).map _

lemma shared_planDelete (id : String) (d : Option Entity) :
    Shared p.expressions (planDelete ⟨p, ev⟩ id d) (planDelete ⟨p, ev'⟩ id d) :=
  (shared_isAllowed h .delete).map _

lemma shared_computeChange (source destination : Option Entity) :
    Shared p.expressions (computeChange ⟨p, ev⟩ source destination)
      (computeChange ⟨p, ev'⟩ source destination) := by
  match source, destination with
  | none, none => exact .pure none
  | some s, none => exact (shared_planCreate h s).map some
  | none, some d =>
    exact (shared_destinationIdentifier d).bind fun id => (shared_planDelete h id (some d)).map some
  | some s, some d =>
    unfold computeChange
    dsimp only
    split
    · exact (shared_planRename h s d).map some
    · exact shared_planUpdate h s d

end Planners

/-- **A policy lists all that is ever asked about.**  Two evaluators that answer alike about the
expressions of a policy, on all bindings, and as they like elsewhere, give the same identifiers, the
same prepared records and the same plans for all records, by the same questions, each of which is
about an expression of the list.  When the list is empty there is no question, so that the results
are those with an evaluator which always fails. -/
theorem inStep_of_expressions (p : Policy) :
    (∀ ev ev', ev.AgreeOn p.expressions ev' → InStep p.expressions ⟨p, ev⟩ ⟨p, ev'⟩) ∧
      (p.expressions = [] → ∀ ev e, InStep [] ⟨p, ev⟩ ⟨p, .failing e⟩) := by
  have hstep : ∀ ev ev', ev.AgreeOn p.expressions ev' →
      InStep p.expressions ⟨p, ev⟩ ⟨p, ev'⟩ := by
    intro ev ev' h
    exact {
      prepareSource := shared_prepareSource h
      resolveIdentifier := shared_resolveIdentifier h
      computeChange := shared_computeChange h
      planCreate := shared_planCreate h
      planUpdate := shared_planUpdate h
      planRename := shared_planRename h
      planDelete := shared_planDelete h }
  refine ⟨hstep, fun hnone ev e => ?_⟩
  have hagree : ev.AgreeOn p.expressions (.failing e) := hnone ▸ ev.agreeOn_nil _
  exact hnone ▸ hstep ev _ hagree

/-! ### A boat that comes into a harbour

The boat spells its berth in another way than the policy, and has no number yet.  The two watches
agree on what the policy asks, and on nothing else. -/

def harbour : Policy :=
  { Policy.empty with
    attributes := .ofList [("berth", ⟨none, ["free"], [], []⟩)]
    conditions := { Conditions.always with create := .expression "calm" }
    identifier := { IdentifierRule.empty with expression := some "number" } }

def dayWatch : Evaluator :=
  .ofTable [("calm", .boolean true), ("free", .texts ["7"]), ("number", .texts ["boat=3"])]

def nightWatch : Evaluator :=
  .ofTable [("free", .texts ["7"]), ("light", .texts ["red"]), ("calm", .boolean true),
    ("number", .texts ["boat=3"])]

def boat : Entity := Entity.putAll .anonymous [("BERTH", [.string ""]), ("name", [.string "Ida"])]

theorem inStep_harbour :
    dayWatch.AgreeOn harbour.expressions nightWatch ∧
      InStep harbour.expressions ⟨harbour, dayWatch⟩ ⟨harbour, nightWatch⟩ ∧
      (computeChange ⟨harbour, nightWatch⟩ (some boat) none).result =
        .ok (some
          ⟨.create "boat=3" [⟨.add, "BERTH", [.string "7"]⟩, ⟨.add, "name", [.string "Ida"]⟩],
            true⟩) ∧
      Policy.empty.expressions = [] ∧
      InStep [] ⟨.empty, dayWatch⟩ ⟨.empty, .failing (.internal "asleep")⟩ := by
  have hlist : harbour.expressions = ["calm", "free", "number"] := by rfl
  have hagree : dayWatch.AgreeOn harbour.expressions nightWatch := by
    rw [hlist]
    constructor <;> intro e he b <;>
      simp only [List.mem_cons, List.not_mem_nil, or_false] at he <;>
      rcases he with rfl | rfl | rfl <;> rfl
  have hnone : Policy.empty.expressions = [] := by rfl
  exact ⟨hagree, (inStep_of_expressions harbour).1 _ _ hagree, by rfl, hnone,
    (inStep_of_expressions .empty).2 hnone _ _⟩

end Reconciler

end StoreSync
