import Mathlib.Data.List.Induction
import TradeChat.Settings

namespace TradeChat

section LastWord

variable {α β : Type}

/-- The last of those things of which something can be read. -/
def lastOf (read : α → Option β) (xs : List α) : Option β := (xs.filterMap read).getLast?

theorem lastOf_append (read : α → Option β) (xs ys : List α) :
    lastOf read (xs ++ ys) = (lastOf read ys).or (lastOf read xs) := by
  rw [lastOf, List.filterMap_append, List.getLast?_append]
  rfl

theorem lastOf_single (read : α → Option β) (x : α) : lastOf read [x] = read x := by
  cases h : read x <;> simp [lastOf, h]

theorem lastOf_snoc (read : α → Option β) (xs : List α) (x : α) :
    lastOf read (xs ++ [x]) = (read x).or (lastOf read xs) := by
  rw [lastOf_append, lastOf_single]

/-- Things of which nothing can be read do not matter. -/
theorem lastOf_filter {read : α → Option β} {keep : α → Bool}
    (h : ∀ x, keep x = false → read x = none) (xs : List α) :
    lastOf read (xs.filter keep) = lastOf read xs := by
  have hread : (fun x => if keep x = true then read x else none) = read := by
    funext x
    cases hx : keep x with
    | true => rfl
    | false => exact (h x hx).symm
  rw [lastOf, List.filterMap_filter, hread, lastOf]

end LastWord

namespace Whitelist

/-- What an entry says about an event. -/
def entryFor (kind : EventKind) (entry : EventKind × Rules) : Option Rules :=
  if entry.1 = kind then some entry.2 else none

theorem rules_set (w : Whitelist) (kind : EventKind) (entry : EventKind × Rules) :
    (w.set entry.1 entry.2).rules? kind = (entryFor kind entry).or (w.rules? kind) := by
  by_cases h : entry.1 = kind
  · simp [set, entryFor, h]
  · simp [set, entryFor, h, Ne.symm h]

/-- Entries that are merged replace those of the same event, and no others. -/
theorem rules_merge (w : Whitelist) (entries : List (EventKind × Rules)) (kind : EventKind) :
    (w.merge entries).rules? kind = (lastOf (entryFor kind) entries).or (w.rules? kind) := by
  induction entries using List.reverseRecOn with
  | nil => rfl
  | append_singleton entries entry ih =>
    have hstep : w.merge (entries ++ [entry]) = (w.merge entries).set entry.1 entry.2 :=
      List.foldl_append
    rw [hstep, rules_set, ih, lastOf_snoc, Option.or_assoc]

end Whitelist

namespace Settings

/-- Settings that lie over others: what is said anew counts, and all else is as it is below. An
event that no layer lists takes nothing. -/
structure Over (below : Settings) (shown : Option Bool) (entry : EventKind → Option Rules)
    (s : Settings) : Prop where
  showTree : s.showTree = shown.getD below.showTree
  listed : ∀ kind, s.whitelist.rules? kind = (entry kind).or (below.whitelist.rules? kind)
  rules : ∀ kind,
    s.whitelist.rules kind = ((entry kind).or (below.whitelist.rules? kind)).getD ⟨[], []⟩

section Over

variable {below s t : Settings} {shown : Option Bool} {entry : EventKind → Option Rules}

theorem Over.unique (hs : below.Over shown entry s) (ht : below.Over shown entry t) : s = t := by
  obtain ⟨showTree, rules⟩ := s
  obtain ⟨showTree', rules'⟩ := t
  have hshow : showTree = showTree' := hs.showTree.trans ht.showTree.symm
  have hrules : rules = rules' :=
    congrArg Whitelist.mk (funext fun kind => (hs.listed kind).trans (ht.listed kind).symm)
  rw [hshow, hrules]

theorem over_merge (below : Settings) (shown : Option Bool) (entries : List (EventKind × Rules)) :
    below.Over shown (fun kind => lastOf (Whitelist.entryFor kind) entries)
      ⟨shown.getD below.showTree, below.whitelist.merge entries⟩ := by
  have hlisted := below.whitelist.rules_merge entries
  exact ⟨rfl, hlisted, fun kind => congrArg (Option.getD · _) (hlisted kind)⟩

end Over

section Load

variable {format : Format} {read : File.Reader} {name : String}

/-- A file reads as the standard settings with those over them that its text lists. -/
theorem load_ok {s : Settings} :
    load format read name = .ok s ↔ ∃ text listing, File.text read name = .ok text ∧
      format text = .ok listing ∧ listing.settings = s := by
  have hparse (text : String) : parse format text = .ok s ↔
      ∃ listing, format text = .ok listing ∧ listing.settings = s := by
    cases htext : format text <;> simp [parse, htext]
  cases hfile : File.text read name <;> simp [load, hfile, hparse]

theorem load_error : (∃ fault, load format read name = .error fault) ↔
    ∀ text, File.text read name = .ok text → ∃ reason, format text = .error reason := by
  have hparse (text : String) : (∃ fault, parse format text = .error fault) ↔
      ∃ reason, format text = .error reason := by
    cases htext : format text <;> simp [parse, htext]
  cases hfile : File.text read name <;> simp [load, hfile, hparse]

end Load

namespace Builder

/-- One thing that a builder is told. -/
inductive Call where
  | file (name : String)
  | settings (settings : Settings)
  | rules (kind : EventKind) (rules : Rules)
  | tree (shown : Bool)

/-- The ways to tell a builder something. -/
inductive Method where
  | file
  | settings
  | rules
  | tree
deriving DecidableEq, Repr

namespace Call

def method : Call → Method
  | file _ => .file
  | settings _ => .settings
  | rules _ _ => .rules
  | tree _ => .tree

def file? : Call → Option String
  | file name => some name
  | _ => none

def settings? : Call → Option Settings
  | settings s => some s
  | _ => none

def tree? : Call → Option Bool
  | tree shown => some shown
  | _ => none

/-- The rules that a call gives for an event. -/
def rulesFor? (kind : EventKind) : Call → Option Rules
  | .rules k own => if k = kind then some own else none
  | _ => none

end Call

def call (b : Builder) : Call → Builder
  | .file name => b.useFile name
  | .settings settings => b.useSettings settings
  | .rules kind rules => b.allow kind rules
  | .tree shown => b.showTree shown

def ofCalls (calls : List Call) : Builder := calls.foldl call {}

/-- A builder keeps the last word of each kind. -/
structure Keeps (b : Builder) (calls : List Call) : Prop where
  file : b.file = lastOf Call.file? calls
  base : b.base = lastOf Call.settings? calls
  shown : b.shown = lastOf Call.tree? calls
  entries : ∀ kind,
    lastOf (Whitelist.entryFor kind) b.entries = lastOf (Call.rulesFor? kind) calls

theorem keeps_start : Keeps {} [] := ⟨rfl, rfl, rfl, fun _ => rfl⟩

theorem Keeps.call {b : Builder} {calls : List Call} (h : b.Keeps calls) (c : Call) :
    (b.call c).Keeps (calls ++ [c]) := by
  refine ⟨?_, ?_, ?_, fun kind => ?_⟩
  · rw [lastOf_snoc, ← h.file]
    cases c <;> rfl
  · rw [lastOf_snoc, ← h.base]
    cases c <;> rfl
  · rw [lastOf_snoc, ← h.shown]
    cases c <;> rfl
  · rw [lastOf_snoc, ← h.entries kind]
    cases c with
    | rules k own => exact lastOf_snoc _ b.entries (k, own)
    | file name => exact (Option.none_or).symm
    | settings s => exact (Option.none_or).symm
    | tree shown => exact (Option.none_or).symm

theorem keeps_ofCalls (calls : List Call) : (ofCalls calls).Keeps calls := by
  induction calls using List.reverseRecOn with
  | nil => exact keeps_start
  | append_singleton calls c ih =>
    rw [ofCalls, List.foldl_append]
    exact ih.call c

/-- The settings that the calls build on: those of the last file, or else the last that are given,
or else the standard ones. -/
inductive Base (format : Format) (read : File.Reader) (calls : List Call) : Settings → Prop
  | file {name text : String} {listing : Listing} {s : Settings} :
      lastOf Call.file? calls = some name → File.text read name = .ok text →
      format text = .ok listing →
      Over {} (some listing.showTree)
        (fun kind => lastOf (Whitelist.entryFor kind) listing.entries) s →
      Base format read calls s
  | given {s : Settings} :
      lastOf Call.file? calls = none → lastOf Call.settings? calls = some s →
      Base format read calls s
  | standard :
      lastOf Call.file? calls = none → lastOf Call.settings? calls = none →
      Base format read calls {}

section Build

variable {format : Format} {read : File.Reader} {calls others : List Call} {b : Builder}

/-- What the layers of a builder lie on. -/
def below (b : Builder) (format : Format) (read : File.Reader) : Except Fault Settings :=
  match b.file with
  | some name => load format read name
  | none => .ok (b.base.getD {})

theorem build_below (b : Builder) (format : Format) (read : File.Reader) :
    b.build format read =
      (b.below format read).map fun s => ⟨b.shown.getD s.showTree, s.whitelist.merge b.entries⟩ :=
  rfl

theorem Keeps.below_ok (h : b.Keeps calls) {s : Settings} :
    b.below format read = .ok s ↔ Base format read calls s := by
  rw [below, h.file]
  cases hfile : lastOf Call.file? calls with
  | some name =>
    rw [load_ok]
    constructor
    · rintro ⟨text, listing, htext, hlisting, rfl⟩
      exact .file hfile htext hlisting (over_merge {} (some listing.showTree) listing.entries)
    · intro hbase
      cases hbase with
      | @file name' text listing s hname htext hlisting hover =>
        cases hfile.symm.trans hname
        refine ⟨text, listing, htext, hlisting, ?_⟩
        exact (over_merge {} (some listing.showTree) listing.entries).unique hover
      | given hnone => cases hfile.symm.trans hnone
      | standard hnone => cases hfile.symm.trans hnone
  | none =>
    rw [h.base, Except.ok.injEq]
    constructor
    · rintro rfl
      cases hbase : lastOf Call.settings? calls with
      | none => exact .standard hfile hbase
      | some s => exact .given hfile hbase
    · intro hbase
      cases hbase with
      | file hname => cases hfile.symm.trans hname
      | given _ hs => rw [hs, Option.getD_some]
      | standard _ hs => rw [hs, Option.getD_none]

theorem Keeps.build_over (h : b.Keeps calls) (s : Settings) :
    s.Over (lastOf Call.tree? calls) (fun kind => lastOf (Call.rulesFor? kind) calls)
      ⟨b.shown.getD s.showTree, s.whitelist.merge b.entries⟩ := by
  rw [← h.shown, ← funext h.entries]
  exact over_merge s b.shown b.entries

theorem Keeps.build_ok (h : b.Keeps calls) {s : Settings} :
    b.build format read = .ok s ↔ ∃ under, Base format read calls under ∧
      under.Over (lastOf Call.tree? calls) (fun kind => lastOf (Call.rulesFor? kind) calls) s := by
  rw [build_below]
  constructor
  · intro hbuild
    cases hbelow : b.below format read with
    | error fault => simp [hbelow, Except.map] at hbuild
    | ok under =>
      rw [hbelow] at hbuild
      cases hbuild
      exact ⟨under, h.below_ok.mp hbelow, h.build_over under⟩
  · rintro ⟨under, hbase, hover⟩
    rw [h.below_ok.mpr hbase]
    exact congrArg Except.ok ((h.build_over under).unique hover)

/-- Only the last file can keep a builder from building. -/
theorem Keeps.build_error (h : b.Keeps calls) :
    (∃ fault, b.build format read = .error fault) ↔ ∃ name, lastOf Call.file? calls = some name ∧
      ∀ text, File.text read name = .ok text → ∃ reason, format text = .error reason := by
  have hbuild : (∃ fault, b.build format read = .error fault) ↔
      ∃ fault, b.below format read = .error fault := by
    rw [build_below]
    cases b.below format read <;> simp [Except.map]
  rw [hbuild, below, h.file]
  cases lastOf Call.file? calls with
  | none => simp
  | some name => simp [load_error]

/-- Nothing but the last words shows in what is built. -/
theorem Keeps.build_unique {b' : Builder} (h : b.Keeps calls) (h' : b'.Keeps calls) :
    b.build format read = b'.build format read := by
  have hbelow : b.below format read = b'.below format read := by
    rw [below, below, h.file, h'.file, h.base, h'.base]
  rw [build_below, build_below, hbelow]
  exact congrArg (Except.map · _) (funext fun s => (h.build_over s).unique (h'.build_over s))

/-- Calls that say the same by each method leave the same last words. -/
theorem lastOf_methods (h : ∀ m, calls.filter (·.method = m) = others.filter (·.method = m))
    {β : Type} {read : Call → Option β} (m : Method) (hread : ∀ c, c.method ≠ m → read c = none) :
    lastOf read calls = lastOf read others := by
  have hfilter : ∀ cs : List Call, lastOf read (cs.filter (·.method = m)) = lastOf read cs :=
    lastOf_filter fun c hc => hread c (by simpa using hc)
  rw [← hfilter calls, ← hfilter others, h m]

theorem Keeps.reordered (h : b.Keeps calls)
    (hsame : ∀ m, calls.filter (·.method = m) = others.filter (·.method = m)) :
    b.Keeps others := by
  refine ⟨?_, ?_, ?_, fun kind => ?_⟩
  · rw [h.file]
    refine lastOf_methods hsame .file fun c hc => ?_
    cases c with
    | file => exact absurd rfl hc
    | _ => rfl
  · rw [h.base]
    refine lastOf_methods hsame .settings fun c hc => ?_
    cases c with
    | settings => exact absurd rfl hc
    | _ => rfl
  · rw [h.shown]
    refine lastOf_methods hsame .tree fun c hc => ?_
    cases c with
    | tree => exact absurd rfl hc
    | _ => rfl
  · rw [h.entries]
    refine lastOf_methods hsame .rules fun c hc => ?_
    cases c with
    | rules => exact absurd rfl hc
    | _ => rfl

/-- Whatever settings files are written in, the settings that a builder gives hang on the last
file, the last settings, the last word on trees and the last rules for each event, wherever among
the calls these stand. -/
theorem build_layered (format : Format) (read : File.Reader) (calls : List Call) :
    (∀ s, (ofCalls calls).build format read = .ok s ↔ ∃ under, Base format read calls under ∧
      under.Over (lastOf Call.tree? calls) (fun kind => lastOf (Call.rulesFor? kind) calls) s) ∧
    ((∃ fault, (ofCalls calls).build format read = .error fault) ↔
      ∃ name, lastOf Call.file? calls = some name ∧
        ∀ text, File.text read name = .ok text → ∃ reason, format text = .error reason) ∧
    ∀ others : List Call, (∀ m, calls.filter (·.method = m) = others.filter (·.method = m)) →
      (ofCalls others).build format read = (ofCalls calls).build format read := by
  have hkeeps := keeps_ofCalls calls
  refine ⟨fun s => hkeeps.build_ok, hkeeps.build_error, fun others hsame => ?_⟩
  exact (keeps_ofCalls others).build_unique (hkeeps.reordered hsame)

/-- Settings that list an event twice. -/
def twiceListed : String := "(whitelist: \x7bSell: (), Buy: (), Buy: (objects: [Player])\x7d)"

/-- A format with one text in it. -/
def twiceFormat : Format := fun text =>
  if text = twiceListed then
    .ok ⟨false, [(.sell, ⟨[], []⟩), (.buy, ⟨[], []⟩), (.buy, ⟨[], [.player]⟩)]⟩
  else .error "unknown text"

/-- A directory with one file. -/
def oneFile : File.Reader := fun name =>
  if name = "list.ron" then .ok (Text.Utf8.encode twiceListed) else .error .missing

/-- Two files, the first of them missing, and rules for one event before and after the second. -/
def searchCalls : List Call :=
  [.rules .findMore ⟨[.player], []⟩, .file "none.ron", .tree true, .file "list.ron",
    .rules .findMore ⟨[], [.item]⟩, .settings ⟨true, .empty⟩, .tree false]

theorem build_layered_search :
    let others : List Call := [.settings ⟨true, .empty⟩, .tree true,
      .rules .findMore ⟨[.player], []⟩,
      .rules .findMore ⟨[], [.item]⟩, .tree false, .file "none.ron", .file "list.ron"]
    (∀ m, searchCalls.filter (·.method = m) = others.filter (·.method = m)) ∧
      (ofCalls others).build twiceFormat oneFile =
        (ofCalls searchCalls).build twiceFormat oneFile ∧
      ((ofCalls searchCalls).build twiceFormat oneFile).map
          (fun s => (s.showTree, EventKind.all.map s.whitelist.rules)) =
        .ok (false, [⟨[], [.player]⟩, ⟨[], []⟩, ⟨[.player], [.dungeon]⟩, ⟨[], [.item]⟩]) := by
  intro others
  have hsame : ∀ m, searchCalls.filter (·.method = m) = others.filter (·.method = m) := by
    intro m
    cases m <;> rfl
  exact ⟨hsame, (build_layered twiceFormat oneFile searchCalls).2.2 others hsame,
    by decide +kernel⟩

end Build

end Builder

end Settings

end TradeChat
