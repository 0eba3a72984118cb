import RealEstateTracker.Domain.Alert
import RealEstateTracker.Domain.FieldRegistry
import RealEstateTracker.Domain.Operators
import RealEstateTracker.Foundation.Outcome

/-!
# Specifications

A condition tree compiles to a specification with one node for each of its own.
Evaluation goes from left to right and stops at the first child that decides a
group, so an exception in a later child may never be raised.
-/

namespace RealEstateTracker.Domain

open Foundation

variable [PythonRuntime]

inductive Specification where
  | field (descriptor : FieldDescriptor) (operator : Operator)
      (expected : Option ConditionValue)
  | and (specs : List Specification)
  | or (specs : List Specification)
  | not (spec : Specification)

namespace Specification

mutual

def isSatisfiedBy (p : Property) : Specification → Except PyError Bool
  | .field descriptor operator expected => do
      let actual ← descriptor.extract p
      operator.matches actual expected
  | .and specs => allSatisfied p specs
  | .or specs => anySatisfied p specs
  | .not spec => do return !(← spec.isSatisfiedBy p)

/-- `all(...)` over the children. -/
def allSatisfied (p : Property) : List Specification → Except PyError Bool
  | [] => .ok true
  | spec :: rest => do
      if ← spec.isSatisfiedBy p then allSatisfied p rest else return false

/-- `any(...)` over the children. -/
def anySatisfied (p : Property) : List Specification → Except PyError Bool
  | [] => .ok false
  | spec :: rest => do
      if ← spec.isSatisfiedBy p then return true else anySatisfied p rest

end

theorem allSatisfied_eq_true {p : Property} {specs : List Specification}
    (h : allSatisfied p specs = .ok true) :
    ∀ spec ∈ specs, isSatisfiedBy p spec = .ok true := by
  induction specs with
  | nil => simp
  | cons spec rest ih =>
      obtain ⟨holds, hspec, hrest⟩ := bind_eq_ok.mp h
      cases holds with
      | false => simp [pure_eq_ok] at hrest
      | true => exact List.forall_mem_cons.mpr ⟨hspec, ih hrest⟩

end Specification

/-! ## The factory -/

namespace SpecificationFactory

def group (operator : GroupOperator) (children : List Specification) :
    Specification :=
  match operator with
  | .all => .and children
  | .any => .or children
  | .none => .not (.or children)

def leaf (registry : FieldRegistry) (condition : AlertCondition) :
    Except PyError Specification := do
  let descriptor ← registry.get condition.fieldKey
  if condition.operator ∈ descriptor.allowedOperators then
    return .field descriptor condition.operator condition.value
  else
    .error (.invalidCondition ("operator " ++ condition.operator.value ++
      " is not valid for field " ++ pyRepr condition.fieldKey ++ " (" ++
      descriptor.fieldType.name ++ ")"))

mutual

def node (registry : FieldRegistry) :
    ConditionNode → Except PyError Specification
  | .leaf condition => leaf registry condition
  | .group operator first rest => do
      let first ← node registry first
      let rest ← nodes registry rest
      return group operator (first :: rest)

def nodes (registry : FieldRegistry) :
    List ConditionNode → Except PyError (List Specification)
  | [] => .ok []
  | child :: rest => do
      let child ← node registry child
      let rest ← nodes registry rest
      return child :: rest

end

def build (registry : FieldRegistry) (alert : SearchAlert) :
    Except PyError Specification :=
  node registry alert.conditions.node

theorem exists_of_nodes {registry : FieldRegistry} {nodes' : List ConditionNode}
    {specs : List Specification} (h : nodes registry nodes' = .ok specs) :
    ∀ child ∈ nodes', ∃ spec ∈ specs, node registry child = .ok spec := by
  induction nodes' generalizing specs with
  | nil => simp
  | cons child rest ih =>
      obtain ⟨spec, hspec, h⟩ := bind_eq_ok.mp h
      obtain ⟨specs', hspecs, h⟩ := bind_eq_ok.mp h
      obtain rfl := pure_eq_ok.mp h
      refine List.forall_mem_cons.mpr ⟨⟨spec, .head _, hspec⟩, ?_⟩
      intro child hchild
      obtain ⟨spec, hmem, hspec⟩ := ih hspecs child hchild
      exact ⟨spec, .tail _ hmem, hspec⟩

theorem build_eq_ok {registry : FieldRegistry} {alert : SearchAlert}
    {spec : Specification} (h : build registry alert = .ok spec) :
    ∃ specs, nodes registry alert.conditions.children = .ok specs ∧
      spec = group alert.conditions.operator specs := by
  rw [build, RuleGroup.node, node] at h
  obtain ⟨first, hfirst, h⟩ := bind_eq_ok.mp h
  obtain ⟨rest, hrest, h⟩ := bind_eq_ok.mp h
  refine ⟨first :: rest, ?_, (pure_eq_ok.mp h).symm⟩
  rw [RuleGroup.children, nodes, hfirst, hrest]
  rfl

theorem leaf_eq_ok {registry : FieldRegistry} {c : AlertCondition}
    {spec : Specification} (h : leaf registry c = .ok spec) :
    ∃ d, registry.get c.fieldKey = .ok d ∧
      spec = .field d c.operator c.value := by
  obtain ⟨d, hget, h⟩ := bind_eq_ok.mp h
  split at h
  · exact ⟨d, hget, (pure_eq_ok.mp h).symm⟩
  · simp at h

end SpecificationFactory

/-! ## The engine -/

structure AlertMatch where
  alertId : AlertId
  propertyId : PropertyId
  matchedAt : DateTime
  deriving DecidableEq, Repr

namespace AlertEngine

def satisfying (spec : Specification) :
    List Property → Except PyError (List Property)
  | [] => .ok []
  | p :: rest => do
      if ← spec.isSatisfiedBy p then
        return p :: (← satisfying spec rest)
      else satisfying spec rest

def evaluate (registry : FieldRegistry) (alert : SearchAlert)
    (candidates : List Property) (now : DateTime) :
    Except PyError (List AlertMatch) := do
  let spec ← SpecificationFactory.build registry alert
  let found ← satisfying spec candidates
  return found.map fun p => ⟨alert.id, p.id, now⟩

/-- The property satisfies the whole condition tree of the alert. -/
def Satisfies (registry : FieldRegistry) (p : Property) (alert : SearchAlert) :
    Prop :=
  ∃ spec, SpecificationFactory.build registry alert = .ok spec ∧
    spec.isSatisfiedBy p = .ok true

theorem mem_satisfying {spec : Specification} {candidates found : List Property}
    (h : satisfying spec candidates = .ok found) (p : Property) :
    p ∈ found ↔ p ∈ candidates ∧ spec.isSatisfiedBy p = .ok true := by
  induction candidates generalizing found with
  | nil =>
      obtain rfl : [] = found := by simpa [satisfying] using h
      simp
  | cons first rest ih =>
      obtain ⟨holds, hfirst, h⟩ := bind_eq_ok.mp h
      cases holds with
      | false =>
          rw [ih h, List.mem_cons]
          exact ⟨fun hp => ⟨.inr hp.1, hp.2⟩, fun hp => ⟨hp.1.resolve_left
            (by rintro rfl; simp [hfirst] at hp), hp.2⟩⟩
      | true =>
          obtain ⟨others, hrest, h⟩ := bind_eq_ok.mp h
          obtain rfl := pure_eq_ok.mp h
          rw [List.mem_cons, List.mem_cons, ih hrest]
          constructor
          · rintro (rfl | hp)
            · exact ⟨.inl rfl, hfirst⟩
            · exact ⟨.inr hp.1, hp.2⟩
          · rintro ⟨rfl | hp, hsatisfied⟩
            · exact .inl rfl
            · exact .inr ⟨hp, hsatisfied⟩

theorem mem_evaluate {registry : FieldRegistry} {alert : SearchAlert}
    {candidates : List Property} {now : DateTime} {found : List AlertMatch}
    (h : evaluate registry alert candidates now = .ok found) (m : AlertMatch) :
    m ∈ found ↔
      ∃ p ∈ candidates, Satisfies registry p alert ∧ m = ⟨alert.id, p.id, now⟩ := by
  obtain ⟨spec, hspec, h⟩ := bind_eq_ok.mp h
  obtain ⟨selected, hselected, h⟩ := bind_eq_ok.mp h
  obtain rfl := pure_eq_ok.mp h
  simp only [List.mem_map, mem_satisfying hselected]
  constructor
  · rintro ⟨p, ⟨hp, hsatisfied⟩, rfl⟩
    exact ⟨p, hp, ⟨spec, hspec, hsatisfied⟩, rfl⟩
  · rintro ⟨p, hp, ⟨spec', hspec', hsatisfied⟩, rfl⟩
    obtain rfl : spec = spec' := Except.ok.inj (hspec.symm.trans hspec')
    exact ⟨p, ⟨hp, hsatisfied⟩, rfl⟩

end AlertEngine

end RealEstateTracker.Domain
