import TradeChat.Proofs.Forest.Nodes
import TradeChat.Proofs.Grouping.Members
import TradeChat.Sentence.Template

namespace TradeChat.Sentence

section Steps

variable {rules : Rules} {role : Role} {e : Entity}

theorem mem_clauseSteps {negated : Bool} {clause : Tree Token}
    (h : .place e ∈ clauseSteps rules role negated clause) :
    e ∈ entities negated clause ∧ rules.allows role e.kind = true := by
  obtain ⟨e', he, hstep⟩ := List.mem_flatMap.mp h
  rw [entitySteps] at hstep
  rcases List.mem_cons.mp hstep with hstep | hstep
  · cases hstep
  · split at hstep
    · rename_i hallowed
      cases List.mem_singleton.mp hstep
      exact ⟨he, hallowed⟩
    · cases hstep

theorem mem_roleSteps {root : Tree Token} (h : .place e ∈ roleSteps rules role root) :
    ∃ clause ∈ root.descendantsNamed role.typeName,
      e ∈ entities clause.value.negated clause ∧ rules.allows role e.kind = true := by
  obtain ⟨clause, hclause, hstep⟩ := List.mem_flatMap.mp h
  rcases List.mem_cons.mp hstep with hstep | hstep
  · cases hstep
  · exact ⟨clause, hclause, mem_clauseSteps hstep⟩

end Steps

/-- One more reading into a sentence: the clauses of a role below a node of some forest, or the
entities right below a node. -/
inductive Call where
  | role (f : Forest) (node : Fin f.size) (role : Role)
  | bare (f : Forest) (node : Fin f.size)

def call (s : Sentence) : Call → Sentence
  | .role f node role => s.readRole role (f.treeAt node)
  | .bare f node => s.readBareObjects (f.treeAt node)

/-- No group is empty, and all members are of kinds that the rules allow. -/
structure Sound (s : Sentence) : Prop where
  filled : ∀ role, [] ∉ s.groups role
  valid : s.rolesValid = true

/-- A sentence after more reading: its groups and diagnostics go on from where they were, and all
else is as it was. -/
structure Continued (s t : Sentence) : Prop where
  groups : ∀ role, (s.groups role).Extended (t.groups role)
  diagnostics : s.diagnostics <+: t.diagnostics
  kind : t.kind = s.kind
  rules : t.rules = s.rules
  contacts : t.contacts = s.contacts
  dungeons : t.dungeons = s.dungeons

section Reading

variable {s : Sentence}

theorem rolesValid_iff : s.rolesValid = true ↔
    ∀ role, (s.groups role).All fun e => s.rules.allows role e.kind = true := by
  have hall : ∀ groups : Groups Entity, ∀ role,
      groups.flatten.all (s.rules.allows role ·.kind) = true ↔
        groups.All fun e => s.rules.allows role e.kind = true := by
    intro groups role
    rw [List.all_eq_true]
    constructor
    · intro h group hgroup e he
      exact h e (List.mem_flatten.mpr ⟨group, hgroup, he⟩)
    · intro h e he
      obtain ⟨group, hgroup, he⟩ := List.mem_flatten.mp he
      exact h group hgroup e he
  rw [rolesValid, Bool.and_eq_true, hall, hall]
  constructor
  · intro ⟨hsubjects, hobjects⟩ role
    cases role with
    | subject => exact hsubjects
    | object => exact hobjects
  · intro h
    exact ⟨h .subject, h .object⟩

theorem sound_start (kind : EventKind) (rules : Rules) : Sound { kind, rules } := by
  refine ⟨?_, rfl⟩
  intro role
  cases role <;> exact List.not_mem_nil

/-- What a reading into the groups of one role keeps, whatever cursor it starts with. -/
theorem Sound.fill {t : Sentence} (h : s.Sound) (hrules : t.rules = s.rules) {role : Role}
    {cursor : Cursor} {steps : List (Step Entity)}
    (hsteps : ∀ e, .place e ∈ steps → s.rules.allows role e.kind = true)
    (hown : t.groups role = (Grouping.run ⟨cursor, s.groups role⟩ steps).groups)
    (hother : ∀ other, other ≠ role → t.groups other = s.groups other) : t.Sound := by
  have hvalid := rolesValid_iff.mp h.valid
  refine ⟨?_, rolesValid_iff.mpr ?_⟩
  · intro other
    by_cases he : other = role
    · rw [he, hown]
      exact Grouping.run_filled (h.filled role) steps
    · rw [hother other he]
      exact h.filled other
  · intro other
    rw [hrules]
    by_cases he : other = role
    · rw [he, hown]
      exact Grouping.run_all (hvalid role) hsteps
    · rw [hother other he]
      exact hvalid other

theorem groups_readRole (s : Sentence) (role : Role) (root : Tree Token) :
    (s.readRole role root).groups role =
        (Grouping.run ⟨{}, s.groups role⟩ (roleSteps s.rules role root)).groups ∧
      ∀ other, other ≠ role → (s.readRole role root).groups other = s.groups other := by
  refine ⟨by cases role <;> rfl, ?_⟩
  intro other hother
  cases role with
  | subject =>
    cases other with
    | subject => exact absurd rfl hother
    | object => rfl
  | object =>
    cases other with
    | subject => rfl
    | object => exact absurd rfl hother

theorem groups_readBareObjects (s : Sentence) (root : Tree Token) :
    (s.readBareObjects root).groups .object =
        (Grouping.run ⟨.atLast s.objects, s.objects⟩
          (clauseSteps s.rules .object false root)).groups ∧
      ∀ other, other ≠ .object → (s.readBareObjects root).groups other = s.groups other := by
  refine ⟨rfl, ?_⟩
  intro other hother
  cases other with
  | subject => rfl
  | object => exact absurd rfl hother

theorem Sound.readRole (h : s.Sound) (role : Role) (root : Tree Token) :
    (s.readRole role root).Sound := by
  obtain ⟨hown, hother⟩ := s.groups_readRole role root
  refine h.fill (by cases role <;> rfl) ?_ hown hother
  intro e he
  obtain ⟨_, _, _, hallowed⟩ := mem_roleSteps he
  exact hallowed

theorem Sound.readBareObjects (h : s.Sound) (root : Tree Token) :
    (s.readBareObjects root).Sound := by
  obtain ⟨hown, hother⟩ := s.groups_readBareObjects root
  exact h.fill rfl (fun e he => (mem_clauseSteps he).2) hown hother

theorem Sound.call (h : s.Sound) (c : Call) : (s.call c).Sound := by
  cases c with
  | role f node role => exact h.readRole role _
  | bare f node => exact h.readBareObjects _

theorem sound_calls (h : s.Sound) (calls : List Call) : (calls.foldl Sentence.call s).Sound := by
  induction calls generalizing s with
  | nil => exact h
  | cons c calls ih => exact ih (h.call c)

theorem continued_readRole (s : Sentence) (role : Role) (root : Tree Token) :
    Continued s (s.readRole role root) := by
  obtain ⟨hown, hother⟩ := s.groups_readRole role root
  refine ⟨?_, List.prefix_append _ _, ?_, ?_, ?_, ?_⟩
  · intro other
    by_cases he : other = role
    · rw [he, hown]
      exact Grouping.run_extended ⟨{}, s.groups role⟩ _
    · rw [hother other he]
      exact .refl _
  all_goals cases role <;> rfl

theorem continued_readBareObjects (s : Sentence) (root : Tree Token) :
    Continued s (s.readBareObjects root) := by
  obtain ⟨hown, hother⟩ := s.groups_readBareObjects root
  refine ⟨?_, List.prefix_append _ _, rfl, rfl, rfl, rfl⟩
  intro other
  by_cases he : other = .object
  · rw [he, hown]
    exact Grouping.run_extended ⟨.atLast s.objects, s.objects⟩ _
  · rw [hother other he]
    exact .refl _

theorem continued_call (s : Sentence) (c : Call) : Continued s (s.call c) := by
  cases c with
  | role f node role => exact s.continued_readRole role _
  | bare f node => exact s.continued_readBareObjects _

theorem Sound.readSides (h : s.Sound) (root : Tree Token) : (s.readSides root).Sound := by
  unfold Sentence.readSides
  split <;> exact ⟨h.filled, h.valid⟩

theorem sound_assemble (kind : EventKind) (rules : Rules) (root : Tree Token) :
    (assemble kind rules root).Sound :=
  ((((sound_start kind rules).readRole .object root).readBareObjects root).readRole
    .subject root).readSides root

theorem Sound.fault (h : s.Sound) : s.fault? ≠ some .invalidRoles := by
  rw [fault?, h.valid]
  split <;> simp

end Reading

/-- Whatever is read into a new sentence, in any order and from any trees, no group is ever empty
and no member of a wrong kind, and each reading only adds: members behind those of a group, groups
behind the others, diagnostics behind the earlier ones. So a sentence that was read from a tree
has no invalid roles. -/
theorem calls_sound (kind : EventKind) (rules : Rules) :
    (∀ (calls : List Call) (next : Call),
      let s := calls.foldl call { kind, rules }
      s.Sound ∧ (s.call next).Sound ∧ Continued s (s.call next)) ∧
    ∀ (f : Forest) (root : Fin f.size),
      (assemble kind rules (f.treeAt root)).fault? ≠ some .invalidRoles := by
  refine ⟨?_, fun f root => (sound_assemble kind rules _).fault⟩
  intro calls next s
  have hs : s.Sound := sound_calls (sound_start kind rules) calls
  exact ⟨hs, hs.call next, s.continued_call next⟩

end TradeChat.Sentence
