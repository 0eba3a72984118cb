import RealEstateTracker.Domain.Specification

/-!
# Compilation

A condition tree means what its combinators say about its children.  The factory
rejects a tree with an invalid leaf at any depth, and what it makes of any other
tree agrees with the meaning of the tree.
-/

namespace RealEstateTracker.Domain

open Foundation

/-! ## Valid leaves -/

def Compiles (registry : FieldRegistry) (c : AlertCondition) : Prop :=
  ∃ d ∈ registry.descriptors, d.key = c.fieldKey ∧
    c.operator ∈ d.allowedOperators

theorem FieldRegistry.get_eq_ok {registry : FieldRegistry} {key : String}
    {d : FieldDescriptor} :
    registry.get key = .ok d ↔ d ∈ registry.descriptors ∧ d.key = key := by
  refine ⟨get_key, ?_⟩
  rintro ⟨hd, rfl⟩
  have hfind : registry.descriptors.find? (·.key = d.key) = some d := by
    cases hfound : registry.descriptors.find? (·.key = d.key) with
    | none => simpa using List.find?_eq_none.mp hfound d hd
    | some found =>
        have hkey : found.key = d.key := by simpa using List.find?_some hfound
        rw [List.inj_on_of_nodup_map registry.keysNodup
          (List.mem_of_find?_eq_some hfound) hd hkey]
  rw [get, hfind]

def RaisesInvalidCondition {α : Type} (result : Except PyError α) : Prop :=
  ∃ message, result = .error (.invalidCondition message)

/--
Compiling conditions returns a value with a property if all of them are valid,
and raises otherwise.
-/
def ChecksLeaves {α : Type} (registry : FieldRegistry)
    (leaves : List AlertCondition) (good : α → Prop) (result : Except PyError α) :
    Prop :=
  ((∀ c ∈ leaves, Compiles registry c) ∧ ∃ value, result = .ok value ∧ good value) ∨
    ((∃ c ∈ leaves, ¬Compiles registry c) ∧ RaisesInvalidCondition result)

theorem ChecksLeaves.pure {α : Type} {registry : FieldRegistry} {good : α → Prop}
    {value : α} (h : good value) : ChecksLeaves registry [] good (.ok value) :=
  .inl ⟨by simp, value, rfl, h⟩

theorem ChecksLeaves.bind {α β : Type} {registry : FieldRegistry}
    {leaves leaves' : List AlertCondition} {good : α → Prop} {good' : β → Prop}
    {result : Except PyError α} {next : α → Except PyError β}
    (h : ChecksLeaves registry leaves good result)
    (hnext : ∀ value, good value →
      ChecksLeaves registry leaves' good' (next value)) :
    ChecksLeaves registry (leaves ++ leaves') good' (result >>= next) := by
  obtain ⟨hleaves, value, rfl, hvalue⟩ | ⟨⟨c, hc, hinvalid⟩, message, rfl⟩ := h
  · obtain ⟨hleaves', found, hfound, hgood⟩ | ⟨⟨c, hc, hinvalid⟩, hraises⟩ :=
      hnext value hvalue
    · exact .inl ⟨List.forall_mem_append.mpr ⟨hleaves, hleaves'⟩, found, hfound,
        hgood⟩
    · exact .inr ⟨⟨c, List.mem_append_right _ hc, hinvalid⟩, hraises⟩
  · exact .inr ⟨⟨c, List.mem_append_left _ hc, hinvalid⟩, message, rfl⟩

theorem checksLeaves_leaf [PythonRuntime] (registry : FieldRegistry) (c : AlertCondition) :
    ChecksLeaves registry [c]
      (fun spec => SpecificationFactory.leaf registry c = .ok spec)
      (SpecificationFactory.leaf registry c) := by
  unfold ChecksLeaves
  simp only [List.mem_singleton, forall_eq, exists_eq_left]
  unfold SpecificationFactory.leaf
  cases hget : registry.get c.fieldKey with
  | error error =>
      refine .inr ⟨?_, ?_⟩
      · rintro ⟨d, hd, hkey, -⟩
        rw [FieldRegistry.get_eq_ok.mpr ⟨hd, hkey⟩] at hget
        cases hget
      · unfold FieldRegistry.get at hget
        split at hget
        · cases hget
        · obtain rfl := Except.error.inj hget
          exact ⟨_, rfl⟩
  | ok d =>
      obtain ⟨hd, hkey⟩ := FieldRegistry.get_eq_ok.mp hget
      by_cases hallowed : c.operator ∈ d.allowedOperators
      · refine .inl ⟨⟨d, hd, hkey, hallowed⟩,
          .field d c.operator c.value, ?_⟩
        simp only [bind, Except.bind, if_pos hallowed]
        exact ⟨rfl, rfl⟩
      · refine .inr ⟨?_, ?_⟩
        · rintro ⟨d', hd', hkey', hallowed'⟩
          rw [FieldRegistry.get_eq_ok.mpr ⟨hd', hkey'⟩] at hget
          obtain rfl := Except.ok.inj hget
          exact hallowed hallowed'
        · simp only [bind, Except.bind, if_neg hallowed]
          exact ⟨_, rfl⟩

/-! ## The meaning of a tree -/

mutual

/-- The meaning of a tree, given that of its leaves. -/
def ConditionNode.Holds (holds : AlertCondition → Prop) : ConditionNode → Prop
  | .leaf condition => holds condition
  | .group .all first rest => first.Holds holds ∧ EachHolds holds rest
  | .group .any first rest => first.Holds holds ∨ SomeHolds holds rest
  | .group .none first rest => ¬(first.Holds holds ∨ SomeHolds holds rest)

def EachHolds (holds : AlertCondition → Prop) : List ConditionNode → Prop
  | [] => True
  | node :: rest => node.Holds holds ∧ EachHolds holds rest

def SomeHolds (holds : AlertCondition → Prop) : List ConditionNode → Prop
  | [] => False
  | node :: rest => node.Holds holds ∨ SomeHolds holds rest

end

section Meaning

variable {holds : AlertCondition → Prop}

end Meaning

/-! ## Compiled trees -/

section Trees

variable [PythonRuntime]

def leafResult (registry : FieldRegistry) (p : Property) (c : AlertCondition) :
    Except PyError Bool := do
  let descriptor ← registry.get c.fieldKey
  let actual ← descriptor.extract p
  c.operator.matches actual c.value

def LeafHolds (registry : FieldRegistry) (p : Property) (c : AlertCondition) :
    Prop :=
  leafResult registry p c = .ok true

/-- The specification says about a property what the tree means. -/
def Agrees (registry : FieldRegistry) (spec : Specification)
    (node : ConditionNode) : Prop :=
  ∀ p, (∀ c ∈ node.leaves, ¬Raises (leafResult registry p c)) →
    ∃ b, spec.isSatisfiedBy p = .ok b ∧
      (b = true ↔ node.Holds (LeafHolds registry p))

theorem agrees_leaf {registry : FieldRegistry} {c : AlertCondition}
    {spec : Specification} (h : SpecificationFactory.leaf registry c = .ok spec) :
    Agrees registry spec (.leaf c) := by
  intro p hsafe
  have hresult : leafResult registry p c = spec.isSatisfiedBy p := by
    obtain ⟨d, hget, rfl⟩ := SpecificationFactory.leaf_eq_ok h
    rw [leafResult, hget, Specification.isSatisfiedBy]
    rfl
  obtain ⟨b, hb⟩ := not_raises_iff.mp (hsafe c (by simp [ConditionNode.leaves]))
  refine ⟨b, hresult ▸ hb, ?_⟩
  rw [ConditionNode.Holds, LeafHolds, hb]
  simp

variable {registry : FieldRegistry} {specs : List Specification}
  {nodes : List ConditionNode} {p : Property}

/-- `all` stops at the first child that fails, which decides the group. -/
theorem allSatisfied_agrees (h : List.Forall₂ (Agrees registry) specs nodes)
    (hsafe : ∀ c ∈ leavesOf nodes, ¬Raises (leafResult registry p c)) :
    ∃ b, Specification.allSatisfied p specs = .ok b ∧
      (b = true ↔ EachHolds (LeafHolds registry p) nodes) := by
  induction h with
  | nil => exact ⟨true, rfl, by simp [EachHolds]⟩
  | @cons spec node specs nodes hagrees _ ih =>
      rw [leavesOf, List.forall_mem_append] at hsafe
      obtain ⟨b, hb, hholds⟩ := hagrees p hsafe.1
      rw [Specification.allSatisfied, hb, EachHolds, ← hholds]
      cases b with
      | false => exact ⟨false, rfl, by simp⟩
      | true =>
          obtain ⟨b, hb, hrest⟩ := ih hsafe.2
          exact ⟨b, hb, by simpa using hrest⟩

/-- `any` stops at the first child that holds. -/
theorem anySatisfied_agrees (h : List.Forall₂ (Agrees registry) specs nodes)
    (hsafe : ∀ c ∈ leavesOf nodes, ¬Raises (leafResult registry p c)) :
    ∃ b, Specification.anySatisfied p specs = .ok b ∧
      (b = true ↔ SomeHolds (LeafHolds registry p) nodes) := by
  induction h with
  | nil => exact ⟨false, rfl, by simp [SomeHolds]⟩
  | @cons spec node specs nodes hagrees _ ih =>
      rw [leavesOf, List.forall_mem_append] at hsafe
      obtain ⟨b, hb, hholds⟩ := hagrees p hsafe.1
      rw [Specification.anySatisfied, hb, SomeHolds, ← hholds]
      cases b with
      | true => exact ⟨true, rfl, by simp⟩
      | false =>
          obtain ⟨b, hb, hrest⟩ := ih hsafe.2
          exact ⟨b, hb, by simpa using hrest⟩

theorem agrees_group {first : ConditionNode} {rest : List ConditionNode}
    (operator : GroupOperator)
    (h : List.Forall₂ (Agrees registry) specs (first :: rest)) :
    Agrees registry (SpecificationFactory.group operator specs)
      (.group operator first rest) := by
  intro p hsafe
  rw [ConditionNode.leaves] at hsafe
  obtain ⟨each, heach, hholds⟩ := allSatisfied_agrees h hsafe
  obtain ⟨some, hsome, hholds'⟩ := anySatisfied_agrees h hsafe
  rw [EachHolds] at hholds
  rw [SomeHolds] at hholds'
  cases operator with
  | all => exact ⟨each, heach, by rw [ConditionNode.Holds, hholds]⟩
  | any => exact ⟨some, hsome, by rw [ConditionNode.Holds, hholds']⟩
  | none =>
      refine ⟨!some, ?_, ?_⟩
      · rw [SpecificationFactory.group, Specification.isSatisfiedBy,
          Specification.isSatisfiedBy, hsome]
        rfl
      · rw [ConditionNode.Holds, ← hholds']
        simp

variable (registry)

theorem checksLeaves_nodes (h : ∀ child ∈ nodes,
    ChecksLeaves registry child.leaves (Agrees registry · child)
      (SpecificationFactory.node registry child)) :
    ChecksLeaves registry (leavesOf nodes)
      (List.Forall₂ (Agrees registry) · nodes)
      (SpecificationFactory.nodes registry nodes) := by
  induction nodes with
  | nil => exact .pure .nil
  | cons child rest ih =>
      obtain ⟨hchild, hrest⟩ := List.forall_mem_cons.mp h
      refine hchild.bind fun spec hspec => ?_
      rw [← List.append_nil (leavesOf rest)]
      exact (ih hrest).bind fun specs hspecs => .pure (.cons hspec hspecs)

theorem checksLeaves_node (node : ConditionNode) :
    ChecksLeaves registry node.leaves (Agrees registry · node)
      (SpecificationFactory.node registry node) := by
  induction node using ConditionNode.induct with
  | leaf c =>
      obtain ⟨hleaves, spec, hspec, -⟩ | hinvalid := checksLeaves_leaf registry c
      · exact .inl ⟨hleaves, spec, hspec, agrees_leaf hspec⟩
      · exact .inr hinvalid
  | group operator first rest ih =>
      obtain ⟨hfirst, hrest⟩ := List.forall_mem_cons.mp ih
      rw [ConditionNode.leaves, SpecificationFactory.node]
      refine hfirst.bind fun spec hspec => ?_
      rw [← List.append_nil (leavesOf rest)]
      exact (checksLeaves_nodes registry hrest).bind fun specs hspecs =>
        .pure (agrees_group operator (.cons hspec hspecs))

omit [PythonRuntime] in
theorem leaves_node (g : RuleGroup) : g.node.leaves = g.leaves := by
  rw [RuleGroup.node, ConditionNode.leaves, RuleGroup.leaves, RuleGroup.children,
    leavesOf]

/--
Compilation is exact: the factory raises `InvalidConditionError` if and only if
some leaf is invalid, and a specification that it returns says about every
property on which the leaves evaluate what the tree means.
-/
theorem compilation_is_exact (registry : FieldRegistry) (alert : SearchAlert) :
    (RaisesInvalidCondition (SpecificationFactory.build registry alert) ↔
      ∃ c ∈ alert.conditions.leaves, ¬Compiles registry c) ∧
    (¬RaisesInvalidCondition (SpecificationFactory.build registry alert) →
      ∃ spec, SpecificationFactory.build registry alert = .ok spec ∧
        ∀ p, (∀ c ∈ alert.conditions.leaves,
            ∃ b, leafResult registry p c = .ok b) →
          ∃ b, spec.isSatisfiedBy p = .ok b ∧
            (b = true ↔ alert.conditions.node.Holds (LeafHolds registry p))) := by
  have hcheck := checksLeaves_node registry alert.conditions.node
  rw [leaves_node] at hcheck
  obtain ⟨hleaves, spec, hspec, hagrees⟩ | ⟨hinvalid, hraises⟩ := hcheck
  · have hreturns : ¬RaisesInvalidCondition
        (SpecificationFactory.build registry alert) := by
      rintro ⟨message, hmessage⟩
      rw [SpecificationFactory.build, hspec] at hmessage
      cases hmessage
    refine ⟨iff_of_false hreturns ?_, fun _ => ⟨spec, hspec, fun p hsafe => ?_⟩⟩
    · rintro ⟨c, hc, hinvalid⟩
      exact hinvalid (hleaves c hc)
    · refine hagrees p fun c hc => not_raises_iff.mpr (hsafe c ?_)
      rwa [leaves_node] at hc
  · exact ⟨iff_of_true hraises hinvalid, fun hreturns => absurd hraises hreturns⟩

end Trees

end RealEstateTracker.Domain
