import TradeChat.Proofs.Entity.Abridged
import TradeChat.Proofs.Grouping.Parting
import TradeChat.Proofs.Sentence.Filling
import TradeChat.Proofs.Sentence.Reading

namespace TradeChat
open TradeChat.Tree

theorem EntityKind.of_dungeon {t : Token} :
    EntityKind.ofToken? t = some .dungeon ↔ t.isType "instance" = true := by
  constructor
  · exact EntityKind.dungeon.isType
  · intro h
    have hplayer : t.isType "player" = false := Token.isType_other h (by decide)
    have hitem : t.isType "item" = false := Token.isType_other h (by decide)
    simp [EntityKind.ofToken?, EntityKind.all, EntityKind.typeName, hplayer, hitem, h]

theorem EntityKind.of_contact {t : Token} (h : t.isType "contactmethod" = true) :
    EntityKind.ofToken? t = none := by
  refine List.find?_eq_none.mpr fun kind _ => ?_
  rw [Token.isType_other h (by cases kind <;> decide)]
  exact Bool.false_ne_true

/-- A place to go, in contrast to players and items. -/
def Entity.isTarget (e : Entity) : Bool := e.kind == .dungeon

theorem Entity.isTarget_of_type {t : Tree Token} {e : Entity} (h : Entity.ofTree? t = some e) :
    e.isTarget = t.value.isType "instance" := by
  have hkind := (Entity.ofTree_some h).1
  rw [isTarget, Bool.eq_iff_iff, beq_iff_eq, ← EntityKind.of_dungeon, hkind, Option.some.injEq]

namespace Tree

/-- A tree without its children of a type, and without all that is below them. -/
def without (name : String) (t : Tree Token) : Tree Token :=
  node t.value (t.children.filter fun c => !c.value.isType name)

/-- No role clause is, or stands below, a child of the type. -/
def Clauseless (name : String) (t : Tree Token) : Prop :=
  ∀ c ∈ t.children, c.value.isType name = true →
    ∀ u ∈ c.subtrees, ∀ role : Role, u.value.isType role.typeName = false

variable {t : Tree Token} {name : String}

theorem clauseless_iff : t.Clauseless name ↔
    ∀ c ∈ t.children, c.value.isType name = true → ∀ u ∈ c.subtrees,
      u.value.isType "subject" = false ∧ u.value.isType "object" = false := by
  refine forall₂_congr fun c _ => imp_congr_right fun _ => forall₂_congr fun u _ => ?_
  constructor
  · intro h
    exact ⟨h .subject, h .object⟩
  · intro ⟨hsubject, hobject⟩ role
    cases role with
    | subject => exact hsubject
    | object => exact hobject

instance : Decidable (t.Clauseless name) := decidable_of_iff _ clauseless_iff.symm

/-- What reads nothing from the children of a type reads the same without them. -/
theorem flatMap_without {β : Type} {read : Tree Token → List β}
    (h : ∀ c ∈ t.children, c.value.isType name = true → read c = []) :
    (t.without name).children.flatMap read = t.children.flatMap read := by
  obtain ⟨a, ts⟩ := t
  rw [without, children_node, children_node] at *
  induction ts with
  | nil => rfl
  | cons c rest ih =>
    obtain ⟨hown, hrest⟩ := List.forall_mem_cons.mp h
    cases hc : c.value.isType name with
    | true => simp [hc, hown hc, ih hrest]
    | false => simp [hc, ih hrest]

theorem descendantsNamed_without (h : t.Clauseless name) (role : Role) :
    (t.without name).descendantsNamed role.typeName = t.descendantsNamed role.typeName := by
  simp only [descendantsNamed, descendants_eq, List.filter_flatMap]
  refine flatMap_without fun c hc htype => ?_
  rw [List.filter_eq_nil_iff]
  intro u hu
  simp [h c hc htype u hu role]

theorem named_without : (t.without name).children.filter (·.value.isType name) = [] := by
  rw [List.filter_eq_nil_iff]
  intro c hc
  simpa using (List.mem_filter.mp hc).2

end Tree

namespace Sentence

variable {t : Tree Token}

theorem readRole_without {name : String} (h : t.Clauseless name) (s : Sentence) (role : Role) :
    s.readRole role (t.without name) = s.readRole role t := by
  rw [readRole, readRole, roleSteps, roleSteps, descendantsNamed_without h]

section Contacts

theorem entities_without_contacts (negated : Bool) :
    entities negated (t.without "contactmethod") = entities negated t := by
  simp only [entities, List.filterMap_eq_flatMap_toList]
  rw [flatMap_without]
  intro c _ htype
  simp [Entity.ofTree?, EntityKind.of_contact htype]

theorem faults_without_contacts : clauseFaults (t.without "contactmethod") = clauseFaults t := by
  refine flatMap_without fun c _ htype => ?_
  simp [Entity.faults, EntityKind.of_contact htype]

theorem contactSteps_without : contactSteps (t.without "contactmethod") = [] := by
  have hnone : (t.without "contactmethod").attributesNamed "contactmethod" = [] := by
    rw [attributesNamed, attributes, List.filter_map]
    exact congrArg (List.map value) named_without
  rw [contactSteps, hnone, List.flatMap_nil]

/-- Ways of contact are seen among the contacts only. -/
theorem assemble_without_contacts {kind : EventKind} (hkind : kind = .buy ∨ kind = .sell)
    (rules : Rules) (h : t.Clauseless "contactmethod") :
    assemble kind rules (t.without "contactmethod") =
      { assemble kind rules t with contacts := [] } := by
  have hbare : ∀ s : Sentence,
      s.readBareObjects (t.without "contactmethod") = s.readBareObjects t := by
    intro s
    rw [readBareObjects, readBareObjects, clauseSteps, clauseSteps, entities_without_contacts,
      faults_without_contacts]
  simp only [assemble, readRole_without h, hbare]
  rcases hkind with rfl | rfl
  all_goals
    simp only [readSides]
    rw [contactSteps_without]
    rfl

end Contacts

section Dungeons

theorem faults_without_dungeons : clauseFaults (t.without "instance") = clauseFaults t := by
  refine flatMap_without fun c _ htype => ?_
  rw [Entity.faults, EntityKind.of_dungeon.mpr htype]

theorem dungeonSteps_without : dungeonSteps (t.without "instance") = [] := by
  rw [dungeonSteps, EntityKind.typeName, named_without, List.flatMap_nil]

theorem entities_without_dungeons :
    entities false (t.without "instance") = (entities false t).filter (!·.isTarget) := by
  have hread : ∀ c, (Entity.ofTree? c).filter (!·.isTarget) =
      if !c.value.isType "instance" then Entity.ofTree? c else none := by
    intro c
    cases he : Entity.ofTree? c with
    | none => simp
    | some e => simp [Option.filter, Entity.isTarget_of_type he]
  simp only [entities, Bool.false_eq_true, ↓reduceIte, List.map_id', without, children_node]
  rw [List.filter_filterMap, List.filterMap_filter]
  exact congrArg (List.filterMap · t.children) (funext hread).symm

/-- What an entity right below the root brings to the objects. -/
def bareMark (rules : Rules) (e : Entity) : Mark Entity :=
  ⟨e.logic, (some e).filter fun e => rules.allows .object e.kind⟩

/-- The entities right below the root stand behind the objects of the clauses. -/
theorem objects_readBareObjects {s : Sentence} (h : s.Sound) (t : Tree Token) :
    (s.readBareObjects t).objects =
      s.objects.fill false ((entities false t).map (bareMark s.rules)) := by
  have hsteps : clauseSteps s.rules .object false t =
      ((entities false t).map (bareMark s.rules)).flatMap Mark.steps := by
    rw [clauseSteps, List.flatMap_map]
    exact congrArg (fun f => (entities false t).flatMap f)
      (funext fun e => entitySteps_mark s.rules .object e)
  rw [readBareObjects, hsteps]
  exact ((Grouping.Tracks.at_last (h.filled .object)).run _).1

/-- All of a sentence but its objects and targets is read without the targets. -/
theorem assemble_without_dungeons (rules : Rules) (h : t.Clauseless "instance") :
    assemble .findMore rules (t.without "instance") =
      { assemble .findMore rules t with
        objects := (assemble .findMore rules (t.without "instance")).objects
        dungeons := [] } := by
  simp only [assemble, readRole_without h]
  simp only [readSides, readRole, readBareObjects, dungeonSteps_without, faults_without_dungeons]
  rfl

/-- The objects of the clauses of a search. -/
def clauseObjects (rules : Rules) (root : Tree Token) : Groups Entity :=
  (Sentence.readRole { kind := .findMore, rules } .object root).objects

/-- The players and items among the objects, in their groups. -/
def others (s : Sentence) : Groups Entity := s.objects.only (!·.isTarget)

/-- The "or" of a target is read when `k + 1` players and items have been placed. -/
def TargetOr (rules : Rules) (root : Tree Token) (k : Nat) : Prop :=
  ∃ i e, (entities false root)[i]? = some e ∧ e.isTarget = true ∧ e.logic = some .or ∧
    k + 1 = (((clauseObjects rules root).flatten ++ ((entities false root).take i).filter
      (rules.allows .object ·.kind)).filter (!·.isTarget)).length

theorem objects_search (rules : Rules) (t : Tree Token) :
    (assemble .findMore rules t).objects =
      (clauseObjects rules t).fill false ((entities false t).map (bareMark rules)) := by
  apply Eq.trans _ (objects_readBareObjects ((sound_start .findMore rules).readRole .object t) t)
  rfl

theorem clauseObjects_without (rules : Rules) (h : t.Clauseless "instance") :
    clauseObjects rules (t.without "instance") = clauseObjects rules t := by
  simp only [clauseObjects, readRole_without h]

/-- What an entity right below the root brings to the players and items: a target brings its
connective alone. -/
def otherMark (rules : Rules) (e : Entity) : Mark Entity := (bareMark rules e).only (!·.isTarget)

theorem others_search (rules : Rules) (t : Tree Token) :
    (assemble .findMore rules t).others =
      ((clauseObjects rules t).only (!·.isTarget)).fill
        ((clauseObjects rules t).standsAlone (!·.isTarget) false)
        ((entities false t).map (otherMark rules)) := by
  simp only [others, objects_search, Groups.only_fill, List.map_map]
  rfl

theorem otherMark_target (rules : Rules) {e : Entity} (h : e.isTarget = true) :
    (otherMark rules e).member = none := by
  simp [otherMark, Mark.only, bareMark, h]

theorem members_otherMark (rules : Rules) (es : List Entity) :
    es.filterMap (fun e => (otherMark rules e).member) =
      (es.filter fun e => rules.allows .object e.kind).filter (!·.isTarget) := by
  rw [List.filter_filter, ← List.filterMap_eq_filter]
  congr 1
  funext e
  cases hallowed : rules.allows .object e.kind <;> cases htarget : e.isTarget <;>
    simp [otherMark, bareMark, Mark.only, Option.filter, Option.guard, hallowed, htarget]

theorem targetOr_iff {rules : Rules} {k : Nat} : TargetOr rules t k ↔
    Groups.OrLeftOut (otherMark rules) (!·.isTarget) (entities false t)
      ((clauseObjects rules t).only (!·.isTarget)).flatten.length k := by
  simp only [TargetOr, Groups.OrLeftOut, members_otherMark, Groups.flatten_only,
    List.filter_append, List.length_append]
  simp [otherMark, bareMark, Mark.only, Mark.isOr]

/-- The targets part the players and items by each "or" of theirs, and do nothing else to them. -/
theorem others_parted (rules : Rules) (h : t.Clauseless "instance") :
    Groups.Parts (TargetOr rules t) (assemble .findMore rules (t.without "instance")).others
      (assemble .findMore rules t).others := by
  have hstart : Groups.Parts (fun _ => False) ((clauseObjects rules t).only (!·.isTarget))
      ((clauseObjects rules t).only (!·.isTarget)) :=
    ⟨rfl, Groups.filled_only _ _, Groups.filled_only _ _, fun _ => False.elim, fun k => by simp⟩
  have hcut : TargetOr rules t = fun k => False ∨ Groups.OrLeftOut (otherMark rules) (!·.isTarget)
      (entities false t) ((clauseObjects rules t).only (!·.isTarget)).flatten.length k := by
    funext k
    simp only [false_or, targetOr_iff]
  rw [others_search, others_search, clauseObjects_without rules h, entities_without_dungeons, hcut]
  apply hstart.fill
  · simp
  · intro e _ htarget
    exact otherMark_target rules (by simpa using htarget)

theorem headcount_target {e : Entity} (h : e.isTarget = true) : e.headcount = 0 := by
  cases e with
  | dungeon d => rfl
  | player p => cases h
  | item i => cases h

/-- Targets are not counted, with or without players beside them. -/
theorem headcount_others (group : List Entity) :
    headcount (group.filter (!·.isTarget)) = headcount group := by
  simp only [headcount, List.foldl_map]
  generalize (0 : Int64) = sum
  induction group generalizing sum with
  | nil => rfl
  | cons e rest ih => cases he : e.isTarget <;> simp [he, ih, headcount_target]

theorem headcounts_others (s : Sentence) :
    s.headcounts = (s.others.map headcount).filter (0 < ·) := by
  rw [headcounts, others]
  induction s.objects with
  | nil => rfl
  | cons group rest ih =>
    rw [← List.singleton_append, Groups.only_append, Groups.only_single, List.map_append,
      List.map_append, List.filter_append, List.filter_append, ih, List.map_singleton,
      ← headcount_others]
    cases hgroup : group.filter (!·.isTarget) <;> simp [headcount]

theorem headcountText_others {s s' : Sentence} (h : s.others = s'.others) :
    s.headcountText = s'.headcountText := by
  simp only [headcountText, headcounts_others, h]

/-- Where targets are no objects, all objects are players and items. -/
theorem others_all {rules : Rules} (h : rules.allows .object .dungeon = false) (t : Tree Token) :
    (assemble .findMore rules t).others = (assemble .findMore rules t).objects := by
  have hsound := sound_assemble .findMore rules t
  apply Groups.only_all (hsound.filled .object)
  intro group hgroup e he
  have hallowed : rules.allows .object e.kind = true :=
    rolesValid_iff.mp hsound.valid .object group hgroup e he
  cases htarget : e.isTarget with
  | false => rfl
  | true =>
    rw [Entity.isTarget, beq_iff_eq] at htarget
    rw [htarget, h] at hallowed
    cases hallowed

end Dungeons

/-- Ways of contact are seen among the contacts of a trade and nowhere else. The targets of a search
are seen among its targets, and among its objects: there they are entities right below the root like
others, each with its connective, and placed where the rules say so. So the players and items are
those that are there without the targets, in the same order, and neighbours among them stand
together if they do so without the targets and no "or" of a target was read between them. Only
these groups are counted. -/
theorem sides_apart (rules : Rules) (root : Tree Token) :
    (∀ kind, kind = .buy ∨ kind = .sell → root.Clauseless "contactmethod" →
      assemble kind rules (root.without "contactmethod") =
        { assemble kind rules root with contacts := [] }) ∧
    (root.Clauseless "instance" →
      let s := assemble .findMore rules root
      let p := assemble .findMore rules (root.without "instance")
      let bare := entities false root
      p = { s with objects := p.objects, dungeons := [] } ∧
      s.objects = (clauseObjects rules root).fill false (bare.map (bareMark rules)) ∧
      p.objects = (clauseObjects rules root).fill false
        ((bare.filter (!·.isTarget)).map (bareMark rules)) ∧
      s.others.flatten = p.others.flatten ∧
      (∀ k, s.others.Together k ↔ p.others.Together k ∧ ¬TargetOr rules root k) ∧
      (p.others = s.others ↔ ∀ k, TargetOr rules root k → ¬p.others.Together k) ∧
      s.headcounts = (s.others.map headcount).filter (0 < ·) ∧
      p.headcounts = (p.others.map headcount).filter (0 < ·) ∧
      (p.others = s.others → p.headcountText = s.headcountText ∧
        (rules.allows .object .dungeon = false → p = { s with dungeons := [] }))) := by
  refine ⟨fun kind hkind h => assemble_without_contacts hkind rules h, fun h => ?_⟩
  have hparts := others_parted rules h
  refine ⟨assemble_without_dungeons rules h, objects_search rules root, ?_, hparts.members,
    hparts.together, hparts.eq_iff, headcounts_others _, headcounts_others _,
    fun hsame => ⟨headcountText_others hsame, fun hrules => ?_⟩⟩
  · rw [objects_search, clauseObjects_without rules h, entities_without_dungeons]
  · rw [others_all hrules, others_all hrules] at hsame
    rw [assemble_without_dungeons rules h, hsame]

/-- An offer with a way of contact between its items. -/
def contactedOffer : Tree Token :=
  node ⟨"Sell", some "a", none, none, none, false⟩
    [node ⟨"Item", some "i", some "a", none, none, false⟩
        [node ⟨"Name", none, some "i", some "Axe", none, false⟩ []],
      node ⟨"ContactMethod", none, some "a", some "whisper me", some .or, false⟩ [],
      node ⟨"Item", some "j", some "a", none, some .and, false⟩
        [node ⟨"Name", none, some "j", some "Helm", none, false⟩ []]]

/-- A player with a role, right below a search or in a clause of it. -/
def seeker (parent role : String) (logic : Option Connective) : Tree Token :=
  node ⟨"Player", some role, some parent, none, logic, false⟩
    [node ⟨"Role", none, some role, some role, none, false⟩ []]

def target (name : String) (logic : Option Connective) : Tree Token :=
  node ⟨"Instance", some name, some "a", none, logic, false⟩
    [node ⟨"Name", none, some name, some name, none, false⟩ []]

/-- A search for the players of a clause at one of two targets, or for one more player. -/
def targetedSearch : Tree Token :=
  node ⟨"FindMore", some "a", none, none, none, false⟩
    [node ⟨"Object", some "o", some "a", none, none, false⟩
        [seeker "o" "tank" none, seeker "o" "healer" none],
      target "deadmines" none, target "stockade" (some .or), seeker "a" "damage" (some .or)]

theorem sides_apart_named :
    assemble .sell ⟨[.player], [.item]⟩ (contactedOffer.without "contactmethod") =
        { assemble .sell ⟨[.player], [.item]⟩ contactedOffer with contacts := [] } ∧
      assemble .findMore ⟨[], [.player]⟩ (targetedSearch.without "instance") =
        { assemble .findMore ⟨[], [.player]⟩ targetedSearch with dungeons := [] } ∧
      (assemble .findMore ⟨[], [.player]⟩ targetedSearch).headcountText = "1-2" := by
  have hoffer : contactedOffer.Clauseless "contactmethod" := by decide +kernel
  have hsearch : targetedSearch.Clauseless "instance" := by decide +kernel
  have hsame : (assemble .findMore ⟨[], [.player]⟩ (targetedSearch.without "instance")).others =
      (assemble .findMore ⟨[], [.player]⟩ targetedSearch).others := by decide +kernel
  refine ⟨(sides_apart _ contactedOffer).1 .sell (.inr rfl) hoffer, ?_, by decide +kernel⟩
  obtain ⟨-, -, -, -, -, -, -, -, hunchanged⟩ := (sides_apart ⟨[], [.player]⟩ targetedSearch).2 hsearch
  exact (hunchanged hsame).2 rfl

/-- A search for two players, with a target between them. -/
def partedSearch : Tree Token :=
  node ⟨"FindMore", some "a", none, none, none, false⟩
    [seeker "a" "tank" none, target "stockade" (some .or), seeker "a" "healer" none]

/-- The "or" of a target parts the players around it. -/
theorem target_parts_players :
    partedSearch.Clauseless "instance" ∧
      let s := assemble .findMore ⟨[], [.player]⟩ partedSearch
      let p := assemble .findMore ⟨[], [.player]⟩ (partedSearch.without "instance")
      s.objects ≠ p.objects ∧ s.headcountText = "1" ∧ p.headcountText = "2" := by
  decide +kernel

end Sentence

end TradeChat
