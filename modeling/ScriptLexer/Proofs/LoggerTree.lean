import ScriptLexer.Log.Registry
import Mathlib.Data.List.Nodup

/-!
# The way of a record up the tree

A record goes to every logger on the path of the one it was given to. Which loggers these are is
decided by the order in which the loggers came into being, one at a time, and every newcomer is
fitted in between those that are there. What can be said of the path without that order is said
here.

The invariant is that **every logger hangs on the nearest one above it** (`Registry.Grown`). A
newcomer finds its own place by looking for the nearest, and takes over what it is nearest to. The
root is the exception: a newcomer whose name begins the word `root` does not notice that a logger
below it hangs on the root, and leaves it there.

From that, all loggers on a path stand above its beginning, none stands there twice, and unless the
exception applies or two dots follow each other, none that exists is left out.
-/

namespace ScriptLexer.Log

/-! ## Names above a name -/

/-- The name goes on behind `a` with a dot. -/
def StandsAbove (a name : String) : Prop := a ≠ "" ∧ a.toList ++ ['.'] <+: name.toList

instance (a name : String) : Decidable (StandsAbove a name) :=
  inferInstanceAs (Decidable (a ≠ "" ∧ a.toList ++ ['.'] <+: name.toList))

/-- No part of the name between two dots is empty. -/
def NoEmptyPart (name : String) : Prop := ¬ ['.', '.'] <:+: name.toList

instance (name : String) : Decidable (NoEmptyPart name) :=
  inferInstanceAs (Decidable (¬ ['.', '.'] <:+: name.toList))

variable {a b name : String}

namespace StandsAbove

theorem isPrefix (h : StandsAbove a name) : a.toList <+: name.toList :=
  (List.prefix_append _ _).trans h.2

theorem length_lt (h : StandsAbove a name) : a.length < name.length := by
  have hle := h.2.length_le
  rw [List.length_append, List.length_singleton, String.length_toList,
    String.length_toList] at hle
  exact hle

theorem trans (hab : StandsAbove a b) (hb : StandsAbove b name) : StandsAbove a name :=
  ⟨hab.1, hab.2.trans hb.isPrefix⟩

/-- Of two names above a name the shorter one stands above the other. -/
theorem of_length_lt (ha : StandsAbove a name) (hb : b.toList <+: name.toList)
    (hlt : a.length < b.length) : StandsAbove a b := by
  refine ⟨ha.1, List.prefix_of_prefix_length_le ha.2 hb ?_⟩
  rw [List.length_append, List.length_singleton, String.length_toList, String.length_toList]
  exact hlt

end StandsAbove

/-- Names of one length that begin the same name are one. -/
theorem eq_of_isPrefix_of_length (ha : a.toList <+: name.toList) (hb : b.toList <+: name.toList)
    (h : a.length = b.length) : a = b := by
  rw [← String.length_toList, ← String.length_toList (s := b)] at h
  exact String.toList_inj.1
    ((List.prefix_of_prefix_length_le ha hb (Nat.le_of_eq h)).eq_of_length h)

/-- No name stands above the root. -/
theorem not_standsAbove_root : ¬ StandsAbove a rootName := by
  intro h
  have hdot : '.' ∈ rootName.toList := h.2.subset (by simp)
  exact absurd hdot (by decide)

section Cuts

variable {w v r : List Char}

theorem eq_append_of_mem_cutsReversed (h : w ∈ cutsReversed r) :
    w ≠ [] ∧ ∃ rest, r = rest ++ '.' :: w.reverse := by
  induction r using cutsReversed.induct with
  | case1 => cases h
  | case2 => cases h
  | case3 c rest ih =>
    rcases List.mem_cons.1 h with rfl | h
    · exact ⟨by simp, [], by simp⟩
    · obtain ⟨hne, before, rfl⟩ := ih h
      exact ⟨hne, '.' :: c :: before, rfl⟩
  | case4 x rest hlast hdot ih =>
    rw [cutsReversed] at h
    · obtain ⟨hne, before, rfl⟩ := ih h
      exact ⟨hne, x :: before, rfl⟩
    · exact hlast
    · exact hdot

theorem length_lt_of_mem_cutsReversed (h : w ∈ cutsReversed r) : w.length < r.length := by
  obtain ⟨-, rest, rfl⟩ := eq_append_of_mem_cutsReversed h
  rw [List.length_append, List.length_cons, List.length_reverse]
  omega

/-- The nearest name comes first, and it is the longest. -/
theorem pairwise_cutsReversed (r : List Char) :
    (cutsReversed r).Pairwise fun v w => w.length < v.length := by
  induction r using cutsReversed.induct with
  | case1 => exact .nil
  | case2 => exact .nil
  | case3 c rest ih =>
    refine List.pairwise_cons.2 ⟨?_, ih⟩
    intro w hw
    have hlt := length_lt_of_mem_cutsReversed hw
    rw [List.length_reverse, List.length_cons]
    omega
  | case4 x rest hlast hdot ih =>
    rw [cutsReversed]
    · exact ih
    · exact hlast
    · exact hdot

/-- Where no two dots follow each other, a name is cut at every dot. -/
theorem mem_cutsReversed (hparts : ¬ ['.', '.'] <:+: r) {rest : List Char} (hw : w ≠ [])
    (h : r = rest ++ '.' :: w.reverse) : w ∈ cutsReversed r := by
  induction r using cutsReversed.induct generalizing rest with
  | case1 => simp at h
  | case2 =>
    cases rest with
    | nil => exact absurd (List.reverse_eq_nil_iff.1 (List.cons.inj h).2.symm) hw
    | cons x rest => simp at h
  | case3 c more ih =>
    have hmore : ¬ ['.', '.'] <:+: more := fun hin => hparts (hin.trans
      (List.infix_cons (List.infix_cons List.infix_rfl)))
    cases rest with
    | nil =>
      have hcut := (List.cons.inj h).2
      exact List.mem_cons.2 (Or.inl (by rw [hcut, List.reverse_reverse]))
    | cons x rest =>
      have htail := (List.cons.inj h).2
      cases rest with
      | nil =>
        -- the cut would be made between two dots
        obtain ⟨rfl, -⟩ := List.cons.inj htail
        exact absurd (List.prefix_append ['.', '.'] more).isInfix hparts
      | cons y rest => exact List.mem_cons_of_mem _ (ih hmore (List.cons.inj htail).2)
  | case4 x more hlast hdot ih =>
    have hmore : ¬ ['.', '.'] <:+: more := fun hin => hparts (hin.trans
      (List.infix_cons List.infix_rfl))
    rw [cutsReversed]
    · cases rest with
      | nil =>
        obtain ⟨rfl, rfl⟩ := List.cons.inj h
        obtain ⟨c, cs, hcs⟩ := List.exists_cons_of_ne_nil (mt List.reverse_eq_nil_iff.1 hw)
        exact absurd hcs (hdot c cs rfl)
      | cons y rest => exact ih hmore (List.cons.inj h).2
    · exact hlast
    · exact hdot

end Cuts

theorem standsAbove_of_mem_namesAbove (h : a ∈ namesAbove name) : StandsAbove a name := by
  obtain ⟨w, hw, rfl⟩ := List.mem_map.1 h
  obtain ⟨hne, rest, hrest⟩ := eq_append_of_mem_cutsReversed hw
  refine ⟨?_, rest.reverse, ?_⟩
  · intro hempty
    rw [← String.toList_inj, String.toList_ofList] at hempty
    exact hne hempty
  · rw [← List.reverse_reverse name.toList, hrest, String.toList_ofList]
    simp

theorem mem_namesAbove (hparts : NoEmptyPart name) (h : StandsAbove a name) :
    a ∈ namesAbove name := by
  obtain ⟨hne, rest, hrest⟩ := h
  have hreversed : name.toList.reverse = rest.reverse ++ '.' :: a.toList.reverse := by
    rw [← hrest]
    simp
  refine List.mem_map.2 ⟨a.toList, ?_, String.ofList_toList⟩
  refine mem_cutsReversed (fun hin => ?_) (fun hempty => ?_) hreversed
  · exact hparts (List.reverse_infix.1 hin)
  · exact hne (String.toList_inj.1 hempty)

theorem pairwise_namesAbove (name : String) :
    (namesAbove name).Pairwise fun a b => b.length < a.length := by
  refine List.pairwise_map.2 ((pairwise_cutsReversed _).imp ?_)
  intro v w h
  rwa [← String.length_toList, ← String.length_toList, String.toList_ofList,
    String.toList_ofList]

namespace Registry

variable {registry : Registry} {logger : Logger} {parent : String}

/-! ## Looking a logger up -/

theorem lookup_map {f : String × Logger → String × Logger} (hf : ∀ entry, (f entry).1 = entry.1)
    (name : String) :
    (registry.map f).lookup name = (registry.lookup name).map fun logger => (f (name, logger)).2 := by
  induction registry with
  | nil => rfl
  | cons entry registry ih =>
    obtain ⟨key, logger⟩ := entry
    have hkey : f (key, logger) = (key, (f (key, logger)).2) :=
      Prod.ext (hf (key, logger)) rfl
    rw [List.map_cons, hkey, List.lookup_cons, List.lookup_cons, ih]
    cases hname : name == key with
    | true => rw [beq_iff_eq.1 hname]; rfl
    | false => rfl

theorem lookup_set (registry : Registry) (a : String) (logger : Logger) (name : String) :
    (registry.set a logger).lookup name =
      if name = a then (registry.lookup name).map fun _ => logger else registry.lookup name := by
  rw [set, lookup_map]
  · split
    · rfl
    · exact Option.map_id'
  · intro entry
    split
    · next h => exact h.symm
    · rfl

theorem contains_iff : registry.contains name = true ↔ ∃ logger, registry.lookup name = some logger :=
  Option.isSome_iff_exists

theorem contains_set (registry : Registry) (a : String) (logger : Logger) (name : String) :
    (registry.set a logger).contains name = registry.contains name := by
  rw [contains, lookup_set, contains]
  split
  · exact Option.isSome_map
  · rfl

theorem create_of_contains (h : registry.contains name = true) :
    registry.create name = registry := by
  rw [create, if_pos h]

/-- Where a newcomer hangs. -/
def place (registry : Registry) (name : String) : String :=
  ((namesAbove name).find? registry.contains).getD rootName

/-- What becomes of a logger when `newcomer` comes into being. -/
def moved (newcomer name : String) (logger : Logger) : Logger :=
  if movesTo newcomer (name, logger) then { logger with parent := some newcomer } else logger

theorem lookup_create (h : registry.contains a = false) (name : String) :
    (registry.create a).lookup name =
      if name = a then some { parent := some (registry.place a) }
      else (registry.lookup name).map (moved a name) := by
  have hnone : registry.lookup a = none := by simpa [contains] using h
  rw [create, if_neg (by rw [h]; exact Bool.false_ne_true)]
  rw [List.lookup_append, lookup_map]
  · by_cases hname : name = a
    · rw [if_pos hname, hname, hnone, List.lookup_cons, beq_self_eq_true]
      rfl
    · rw [if_neg hname, List.lookup_cons, beq_false_of_ne hname, List.lookup_nil, Option.or_none]
      refine congrArg (fun f => Option.map f _) (funext fun logger => ?_)
      rw [moved]
      split <;> rfl
  · intro entry
    split <;> rfl

theorem contains_create (registry : Registry) (a name : String) :
    (registry.create a).contains name = (decide (name = a) || registry.contains name) := by
  cases h : registry.contains a with
  | true =>
    rw [create_of_contains h]
    by_cases hname : name = a
    · rw [hname, h, Bool.or_true]
    · rw [decide_eq_false hname, Bool.false_or]
  | false =>
    rw [contains, lookup_create h]
    by_cases hname : name = a
    · rw [if_pos hname, decide_eq_true hname, Option.isSome_some, Bool.true_or]
    · rw [if_neg hname, decide_eq_false hname, Option.isSome_map, Bool.false_or, contains]

/-! ## Everyone on the nearest -/

/-- The logger `name` hangs on the nearest logger above it. That one is there, or it is the root, and
its name goes no less far than that of any other. -/
structure HangsOn (registry : Registry) (name parent : String) : Prop where
  there : parent = rootName ∨ parent ∈ namesAbove name ∧ registry.contains parent = true
  /-- With the root for a parent, this leaves the names that begin the word `root`. -/
  nearest : ∀ a ∈ namesAbove name, registry.contains a = true → a.toList <+: parent.toList

/-- What holds of the tree however it has grown. -/
structure Grown (registry : Registry) : Prop where
  root : ∃ logger, registry.lookup rootName = some logger ∧ logger.parent = none
  hangs : ∀ name logger, registry.lookup name = some logger → name ≠ rootName →
    ∃ parent, logger.parent = some parent ∧ registry.HangsOn name parent

/-- A newcomer finds the nearest. -/
theorem hangsOn_place (registry : Registry) (name : String) :
    registry.HangsOn name (registry.place name) := by
  rw [place]
  cases hfind : (namesAbove name).find? registry.contains with
  | none =>
    refine ⟨Or.inl rfl, fun a ha hcontains => ?_⟩
    exact absurd hcontains (List.find?_eq_none.1 hfind a ha)
  | some nearest =>
    obtain ⟨hcontains, before, behind, hsplit, hbefore⟩ := List.find?_eq_some_iff_append.1 hfind
    have hmem : nearest ∈ namesAbove name := List.mem_of_find?_eq_some hfind
    have hordered := pairwise_namesAbove name
    rw [hsplit] at hordered
    obtain ⟨-, hbehind, -⟩ := List.pairwise_append.1 hordered
    refine ⟨Or.inr ⟨hmem, hcontains⟩, fun a ha hexists => ?_⟩
    have hprefix := (standsAbove_of_mem_namesAbove ha).isPrefix
    rw [hsplit] at ha
    rcases List.mem_append.1 ha with ha | ha
    · -- the longer names are those of nobody
      have hnot := hbefore a ha
      rw [hexists] at hnot
      cases hnot
    · rcases List.mem_cons.1 ha with rfl | ha
      · exact List.prefix_rfl
      · have hlt := (List.pairwise_cons.1 hbehind).1 a ha
        refine List.prefix_of_prefix_length_le hprefix
          (standsAbove_of_mem_namesAbove hmem).isPrefix ?_
        rw [String.length_toList, String.length_toList]
        exact Nat.le_of_lt hlt

theorem movesTo_iff {newcomer : String} (hparent : logger.parent = some parent) :
    movesTo newcomer (name, logger) = true ↔
      newcomer ∈ namesAbove name ∧ ¬ newcomer.toList <+: parent.toList := by
  rw [movesTo, hparent, Option.getD_some, Bool.and_eq_true, List.contains_iff_mem,
    Bool.not_eq_true', ← Bool.not_eq_true, List.isPrefixOf_iff_prefix]

theorem contains_of_create {newcomer : String} (h : (registry.create newcomer).contains a = true) :
    a = newcomer ∨ registry.contains a = true := by
  rwa [contains_create, Bool.or_eq_true, decide_eq_true_iff] at h

/-- A logger stays where it is if the newcomer is no nearer. -/
theorem HangsOn.create {newcomer : String} (h : registry.HangsOn name parent)
    (hstays : newcomer ∈ namesAbove name → newcomer.toList <+: parent.toList) :
    (registry.create newcomer).HangsOn name parent := by
  refine ⟨?_, fun a ha hcontains => ?_⟩
  · rcases h.there with hroot | ⟨hmem, hcontains⟩
    · exact Or.inl hroot
    · refine Or.inr ⟨hmem, ?_⟩
      rw [contains_create, hcontains, Bool.or_true]
  · rcases contains_of_create hcontains with rfl | hold
    · exact hstays ha
    · exact h.nearest a ha hold

/-- A logger moves to a newcomer that is nearer than what it hangs on. -/
theorem hangsOn_moved {newcomer : String} (hparent : logger.parent = some parent)
    (h : registry.HangsOn name parent) :
    ∃ parent', (moved newcomer name logger).parent = some parent' ∧
      (registry.create newcomer).HangsOn name parent' := by
  rw [moved]
  by_cases hmoves : movesTo newcomer (name, logger) = true
  · obtain ⟨hmem, hnot⟩ := (movesTo_iff hparent).1 hmoves
    rw [if_pos hmoves]
    refine ⟨newcomer, rfl, Or.inr ⟨hmem, ?_⟩, fun a ha hcontains => ?_⟩
    · rw [contains_create, decide_eq_true rfl, Bool.true_or]
    · rcases contains_of_create hcontains with rfl | hold
      · exact List.prefix_rfl
      · have hprefix := (standsAbove_of_mem_namesAbove ha).isPrefix
        have hnewcomer := (standsAbove_of_mem_namesAbove hmem).isPrefix
        rcases Nat.le_total a.toList.length newcomer.toList.length with hle | hle
        · exact List.prefix_of_prefix_length_le hprefix hnewcomer hle
        · -- what is nearer than the newcomer is not nearer than the old parent
          exact absurd ((List.prefix_of_prefix_length_le hnewcomer hprefix hle).trans
            (h.nearest a ha hold)) hnot
  · rw [if_neg hmoves]
    refine ⟨parent, hparent, h.create fun hmem => ?_⟩
    by_contra hnot
    exact hmoves ((movesTo_iff hparent).2 ⟨hmem, hnot⟩)

theorem grown_create (h : registry.Grown) (newcomer : String) :
    (registry.create newcomer).Grown := by
  cases hnew : registry.contains newcomer with
  | true => rwa [create_of_contains hnew]
  | false =>
    obtain ⟨root, hroot, hnone⟩ := h.root
    have hne : newcomer ≠ rootName := by
      rintro rfl
      rw [contains, hroot] at hnew
      cases hnew
    refine ⟨?_, fun name logger hlookup hname => ?_⟩
    · refine ⟨moved newcomer rootName root, ?_, ?_⟩
      · rw [lookup_create hnew, if_neg hne.symm, hroot, Option.map_some]
      · rw [moved, if_neg, hnone]
        intro hmoves
        rw [movesTo, Bool.and_eq_true, List.contains_iff_mem] at hmoves
        exact not_standsAbove_root (standsAbove_of_mem_namesAbove hmoves.1)
    · rw [lookup_create hnew] at hlookup
      by_cases hself : name = newcomer
      · rw [if_pos hself] at hlookup
        obtain rfl := Option.some.inj hlookup
        refine ⟨_, rfl, ?_⟩
        rw [hself]
        refine (registry.hangsOn_place newcomer).create fun hmem => ?_
        exact absurd (standsAbove_of_mem_namesAbove hmem).length_lt (Nat.lt_irrefl _)
      · rw [if_neg hself] at hlookup
        obtain ⟨old, hold, rfl⟩ := Option.map_eq_some_iff.1 hlookup
        obtain ⟨parent, hparent, hhangs⟩ := h.hangs name old hold hname
        exact hangsOn_moved hparent hhangs

/-- Changing a logger without moving it. -/
theorem grown_set (h : registry.Grown)
    (hparent : registry.contains a = true → logger.parent = (registry.find a).parent) :
    (registry.set a logger).Grown := by
  -- the same names are there, and with the same parents
  have hlookup : ∀ name found, (registry.set a logger).lookup name = some found →
      ∃ old, registry.lookup name = some old ∧ found.parent = old.parent := by
    intro name found hfound
    rw [lookup_set] at hfound
    by_cases hname : name = a
    · rw [if_pos hname] at hfound
      obtain ⟨old, hold, rfl⟩ := Option.map_eq_some_iff.1 hfound
      rw [hname] at hold
      refine ⟨old, by rw [hname, hold], ?_⟩
      rw [hparent (contains_iff.2 ⟨old, hold⟩), find, hold, Option.getD_some]
    · rw [if_neg hname] at hfound
      exact ⟨found, hfound, rfl⟩
  obtain ⟨root, hroot, hnone⟩ := h.root
  refine ⟨?_, fun name found hfound hname => ?_⟩
  · have hthere : (registry.set a logger).contains rootName = true := by
      rw [contains_set]
      exact contains_iff.2 ⟨root, hroot⟩
    obtain ⟨found, hfound⟩ := contains_iff.1 hthere
    obtain ⟨old, hold, heq⟩ := hlookup rootName found hfound
    rw [hroot] at hold
    obtain rfl := Option.some.inj hold
    exact ⟨found, hfound, heq.trans hnone⟩
  · obtain ⟨old, hold, heq⟩ := hlookup name found hfound
    obtain ⟨parent, hparent, hthere, hnearest⟩ := h.hangs name old hold hname
    refine ⟨parent, heq.trans hparent, ?_, ?_⟩
    · rwa [contains_set]
    · intro b hb hcontains
      rw [contains_set] at hcontains
      exact hnearest b hb hcontains

theorem grown_apply (h : registry.Grown) (request : Request) : (registry.apply request).Grown := by
  cases request with
  | obtain name =>
    rw [apply, Registry.obtain]
    split
    · exact grown_create h name
    · exact grown_set (grown_create h name) fun _ => rfl
  | setLevel name level => exact grown_set (grown_create h name) fun _ => rfl
  | write record => exact grown_create h record.logger

/-- The loggers after a list of requests. -/
def after (registry : Registry) (requests : List Request) : Registry :=
  requests.foldl apply registry

theorem grown_after (h : registry.Grown) (requests : List Request) :
    (registry.after requests).Grown := by
  induction requests generalizing registry with
  | nil => exact h
  | cons request requests ih => exact ih (grown_apply h request)

/-! ## The path -/

theorem exists_path_eq_cons (registry : Registry) (name : String) :
    ∃ others, registry.path name = name :: others := by
  rw [path]
  split
  · exact ⟨[], rfl⟩
  · next parent _ =>
    by_cases hlt : parent.length < name.length
    · exact ⟨registry.path parent, if_pos hlt⟩
    · exact ⟨[parent], if_neg hlt⟩

namespace Grown

theorem path_root (h : registry.Grown) : registry.path rootName = [rootName] := by
  obtain ⟨root, hroot, hnone⟩ := h.root
  have hparent : (registry.find rootName).parent = none := by rw [find, hroot]; exact hnone
  rw [path, hparent]

/-- The path leads over the parents up to the root. -/
theorem path_eq (h : registry.Grown) (hlookup : registry.lookup name = some logger)
    (hparent : logger.parent = some parent) (hhangs : registry.HangsOn name parent) :
    registry.path name = name :: registry.path parent := by
  have hfind : (registry.find name).parent = some parent := by rw [find, hlookup]; exact hparent
  conv_lhs => rw [path, hfind]
  by_cases hlt : parent.length < name.length
  · simp only [if_pos hlt]
  · -- only the root can be longer than what hangs on it
    rcases hhangs.there with rfl | ⟨hmem, -⟩
    · simp only [if_neg hlt, h.path_root]
    · exact absurd (standsAbove_of_mem_namesAbove hmem).length_lt hlt

/-- To show something of every logger that exists, show it of the root, and of a logger if it holds
of the one that it hangs on. -/
theorem induct {motive : String → Prop} (h : registry.Grown) (root : motive rootName)
    (child : ∀ name parent, name ≠ rootName → registry.contains parent = true →
      registry.HangsOn name parent → registry.path name = name :: registry.path parent →
      motive parent → motive name) :
    ∀ name, registry.contains name = true → motive name := by
  intro name
  induction hn : name.length using Nat.strongRecOn generalizing name with
  | ind n ih =>
    intro hcontains
    by_cases hname : name = rootName
    · rwa [hname]
    · obtain ⟨logger, hlookup⟩ := contains_iff.1 hcontains
      obtain ⟨parent, hparent, hhangs⟩ := h.hangs name logger hlookup hname
      have hpath := h.path_eq hlookup hparent hhangs
      rcases hhangs.there with rfl | ⟨hmem, hthere⟩
      · obtain ⟨root', hroot, -⟩ := h.root
        exact child name rootName hname (contains_iff.2 ⟨root', hroot⟩) hhangs hpath root
      · have hlt := (standsAbove_of_mem_namesAbove hmem).length_lt
        rw [hn] at hlt
        exact child name parent hname hthere hhangs hpath (ih parent.length hlt parent rfl hthere)

/-- All that a path leads over stands above its beginning. -/
theorem mem_path (h : registry.Grown) (hname : registry.contains name = true) :
    ∀ a ∈ registry.path name, a = name ∨ a = rootName ∨ StandsAbove a name := by
  refine h.induct (motive := fun name =>
    ∀ a ∈ registry.path name, a = name ∨ a = rootName ∨ StandsAbove a name) ?_ ?_ name hname
  · intro a ha
    rw [h.path_root, List.mem_singleton] at ha
    exact Or.inl ha
  · intro name parent _ _ hhangs hpath ih a ha
    rw [hpath] at ha
    rcases List.mem_cons.1 ha with rfl | ha
    · exact Or.inl rfl
    · rcases hhangs.there with rfl | ⟨hmem, -⟩
      · rcases ih a ha with hroot | hroot | habove
        · exact Or.inr (Or.inl hroot)
        · exact Or.inr (Or.inl hroot)
        · exact absurd habove not_standsAbove_root
      · have hparent := standsAbove_of_mem_namesAbove hmem
        rcases ih a ha with rfl | hroot | habove
        · exact Or.inr (Or.inr hparent)
        · exact Or.inr (Or.inl hroot)
        · exact Or.inr (Or.inr (habove.trans hparent))

/-- A path comes by no logger twice. -/
theorem nodup_path (h : registry.Grown) (hname : registry.contains name = true) :
    (registry.path name).Nodup := by
  refine h.induct (motive := fun name => (registry.path name).Nodup) ?_ ?_ name hname
  · rw [h.path_root]
    exact List.nodup_singleton rootName
  · intro name parent hne hthere hhangs hpath ih
    rw [hpath]
    refine List.nodup_cons.2 ⟨fun hmem => ?_, ih⟩
    rcases h.mem_path hthere name hmem with rfl | hroot | habove
    · rcases hhangs.there with hroot | ⟨hself, -⟩
      · exact hne hroot
      · exact absurd (standsAbove_of_mem_namesAbove hself).length_lt (Nat.lt_irrefl _)
    · exact hne hroot
    · rcases hhangs.there with rfl | ⟨hparent, -⟩
      · exact not_standsAbove_root habove
      · have hlt := (standsAbove_of_mem_namesAbove hparent).length_lt
        exact absurd habove.length_lt (Nat.lt_asymm hlt)

/-- **A path leaves out none of the loggers above its beginning**, provided that the name has no
empty parts and the logger is not one that the root may have withheld. -/
theorem mem_path_of_standsAbove (h : registry.Grown) (hname : registry.contains name = true)
    (ha : registry.contains a = true) (hroot : ¬ a.toList <+: rootName.toList) :
    NoEmptyPart name → StandsAbove a name → a ∈ registry.path name := by
  refine h.induct (motive := fun name =>
    NoEmptyPart name → StandsAbove a name → a ∈ registry.path name) ?_ ?_ name hname
  · intro _ habove
    exact absurd habove not_standsAbove_root
  · intro name parent _ _ hhangs hpath ih hparts habove
    have hprefix := hhangs.nearest a (mem_namesAbove hparts habove) ha
    rw [hpath]
    refine List.mem_cons_of_mem _ ?_
    rcases hhangs.there with rfl | ⟨hmem, -⟩
    · exact absurd hprefix hroot
    · have hparent := (standsAbove_of_mem_namesAbove hmem).isPrefix
      have hle := hprefix.length_le
      rw [String.length_toList, String.length_toList] at hle
      rcases Nat.lt_or_eq_of_le hle with hlt | heq
      · refine ih ?_ (habove.of_length_lt hparent hlt)
        exact fun hin => hparts (hin.trans hparent.isInfix)
      · obtain rfl : a = parent := eq_of_isPrefix_of_length habove.isPrefix hparent heq
        obtain ⟨others, hothers⟩ := registry.exists_path_eq_cons a
        rw [hothers]
        exact List.mem_cons_self

end Grown

end Registry

end ScriptLexer.Log
