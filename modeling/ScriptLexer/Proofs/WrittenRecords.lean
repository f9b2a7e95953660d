import ScriptLexer.Proofs.LoggerTree
import Mathlib.Data.List.Dedup
import Mathlib.Data.List.Induction
import Mathlib.Data.List.Perm.Subperm

/-!
# How often a record is written

What becomes of a record can be told from the requests before it, without the tree. Its logger has
the level `info` from the request that obtained it, or the level that was set last since then. A
record below that level is not written. Any other is written once for its logger, and **once more
for each logger above it that was obtained as well** (`Registry.written_per_obtained`).

So a record is written exactly once as long as no logger above its own has been obtained, and not
any more after that: that each logger has one handler does not keep a line from being doubled.
-/

namespace ScriptLexer.Log

/-! ## What the requests say -/

/-- What a request makes of the level of the logger `name`. Before the logger is obtained there is
none to speak of. -/
def Request.ownAfter (name : String) (own : Option (Option Level)) :
    Request → Option (Option Level)
  | obtain n => if n = name ∧ own = none then some (some .info) else own
  | setLevel n level => if n = name then own.map fun _ => level else own
  | write _ => own

/-- The level of the logger `name` after a list of requests, if it has been obtained. -/
def ownLevel? (name : String) (history : List Request) : Option (Option Level) :=
  history.foldl (Request.ownAfter name) none

/-- The logger that a request obtains. -/
def Request.obtains? : Request → Option String
  | obtain name => some name
  | _ => none

/-- The loggers that have been obtained. -/
def obtainedNames (history : List Request) : List String :=
  (history.filterMap Request.obtains?).dedup

/-- The loggers above `name` that have been obtained. -/
def obtainedAbove (name : String) (history : List Request) : List String :=
  (obtainedNames history).filter fun a => StandsAbove a name

/-- The requests by which the scanner and the reporter get their loggers. -/
def loading : List Request := [.obtain "interp.lexer.errors", .obtain "interp.lexer.scanner"]

section History

variable {name : String} {history : List Request}

theorem ownLevel?_append (request : Request) :
    ownLevel? name (history ++ [request]) = request.ownAfter name (ownLevel? name history) := by
  rw [ownLevel?, List.foldl_append]
  rfl

theorem isSome_ownAfter (own : Option (Option Level)) (request : Request) :
    (request.ownAfter name own).isSome = (own.isSome || request.obtains? == some name) := by
  cases request with
  | obtain n =>
    rw [Request.ownAfter, Request.obtains?]
    cases own <;> by_cases hn : n = name <;> simp [hn]
  | setLevel n level =>
    rw [Request.ownAfter]
    split <;> simp [Request.obtains?]
  | write record => simp [Request.ownAfter, Request.obtains?]

theorem isSome_ownLevel?_iff : (ownLevel? name history).isSome ↔ name ∈ obtainedNames history := by
  rw [obtainedNames, List.mem_dedup, List.mem_filterMap]
  induction history using List.reverseRecOn with
  | nil => simp [ownLevel?]
  | append_singleton history request ih =>
    rw [ownLevel?_append, isSome_ownAfter, Bool.or_eq_true, ih, beq_iff_eq]
    simp [or_and_right, exists_or]

end History

namespace Registry

variable {registry : Registry} {name : String} {history : List Request}

/-! ## The state of a logger -/

/-- A newcomer changes nothing of a logger but its place. -/
theorem exists_find_create (registry : Registry) (a name : String) :
    ∃ parent, (registry.create a).find name = { registry.find name with parent := parent } := by
  cases h : registry.contains a with
  | true => exact ⟨(registry.find name).parent, by rw [create_of_contains h]⟩
  | false =>
    rw [find, lookup_create h, find]
    by_cases hname : name = a
    · have hnone : registry.lookup name = none := by simpa [contains, hname] using h
      rw [if_pos hname, hnone]
      exact ⟨some (registry.place a), rfl⟩
    · rw [if_neg hname]
      cases registry.lookup name with
      | none => exact ⟨none, rfl⟩
      | some logger =>
        rw [Option.map_some, moved]
        split
        · exact ⟨some a, rfl⟩
        · exact ⟨logger.parent, rfl⟩

theorem contains_create_self (registry : Registry) (a : String) :
    (registry.create a).contains a = true := by
  rw [contains_create, decide_eq_true rfl, Bool.true_or]

theorem find_set {a : String} (h : registry.contains a = true) (logger : Logger) (name : String) :
    (registry.set a logger).find name = if name = a then logger else registry.find name := by
  rw [find, lookup_set]
  by_cases hname : name = a
  · obtain ⟨old, hold⟩ := contains_iff.1 h
    rw [if_pos hname, if_pos hname, hname, hold]
    rfl
  · rw [if_neg hname, if_neg hname, find]

/-- The loggers are what the requests made of them, as far as levels and handlers go. -/
structure Follows (registry : Registry) (history : List Request) : Prop where
  obtained : ∀ name, (registry.find name).obtained = (ownLevel? name history).isSome
  level : ∀ name level, ownLevel? name history = some level → (registry.find name).level = level

theorem Follows.create (h : registry.Follows history) (a : String) :
    (registry.create a).Follows history := by
  refine ⟨fun name => ?_, fun name level hown => ?_⟩
  · obtain ⟨parent, hparent⟩ := registry.exists_find_create a name
    rw [hparent]
    exact h.obtained name
  · obtain ⟨parent, hparent⟩ := registry.exists_find_create a name
    rw [hparent]
    exact h.level name level hown

/-- A request that makes nothing of any level. -/
theorem Follows.append (h : registry.Follows history) {request : Request}
    (hsame : ∀ name, request.ownAfter name (ownLevel? name history) = ownLevel? name history) :
    registry.Follows (history ++ [request]) := by
  refine ⟨fun name => ?_, fun name level hown => ?_⟩
  · rw [ownLevel?_append, hsame]
    exact h.obtained name
  · rw [ownLevel?_append, hsame] at hown
    exact h.level name level hown

/-- A request that is about the logger `a` alone. -/
theorem Follows.set (h : registry.Follows history) {a : String} {logger : Logger}
    {request : Request} (hthere : registry.contains a = true)
    (hothers : ∀ name, name ≠ a →
      request.ownAfter name (ownLevel? name history) = ownLevel? name history)
    (hobtained : logger.obtained = (request.ownAfter a (ownLevel? a history)).isSome)
    (hlevel : ∀ level, request.ownAfter a (ownLevel? a history) = some level →
      logger.level = level) :
    (registry.set a logger).Follows (history ++ [request]) := by
  refine ⟨fun name => ?_, fun name level hown => ?_⟩
  · rw [find_set hthere, ownLevel?_append]
    by_cases hname : name = a
    · rw [if_pos hname, hname, hobtained]
    · rw [if_neg hname, hothers name hname, h.obtained name]
  · rw [ownLevel?_append] at hown
    rw [find_set hthere]
    by_cases hname : name = a
    · rw [hname] at hown
      rw [if_pos hname, hlevel level hown]
    · rw [hothers name hname] at hown
      rw [if_neg hname, h.level name level hown]

theorem follows_obtain (h : registry.Follows history) (a : String) :
    (registry.obtain a).Follows (history ++ [.obtain a]) := by
  have hcreated := h.create a
  rw [Registry.obtain]
  by_cases hobtained : ((registry.create a).find a).obtained = true
  · -- it has been obtained before, and nothing comes of it
    rw [if_pos hobtained]
    rw [hcreated.obtained] at hobtained
    refine hcreated.append fun name => if_neg ?_
    rintro ⟨rfl, hnone⟩
    rw [hnone] at hobtained
    cases hobtained
  · rw [if_neg hobtained]
    rw [hcreated.obtained, Bool.not_eq_true, Option.isSome_eq_false_iff,
      Option.isNone_iff_eq_none] at hobtained
    have hfirst : (Request.obtain a).ownAfter a (ownLevel? a history) = some (some .info) :=
      if_pos ⟨rfl, hobtained⟩
    refine hcreated.set (registry.contains_create_self a) ?_ ?_ ?_
    · intro name hname
      exact if_neg fun h => hname h.1.symm
    · rw [hfirst]
      rfl
    · intro level hown
      rw [hfirst] at hown
      exact Option.some.inj hown

theorem follows_setLevel (h : registry.Follows history) (a : String) (level : Option Level) :
    (registry.setLevel a level).Follows (history ++ [.setLevel a level]) := by
  have hcreated := h.create a
  have hself : (Request.setLevel a level).ownAfter a (ownLevel? a history) =
      (ownLevel? a history).map fun _ => level := if_pos rfl
  refine hcreated.set (registry.contains_create_self a) ?_ ?_ ?_
  · intro name hname
    exact if_neg hname.symm
  · rw [hself, Option.isSome_map]
    exact hcreated.obtained a
  · intro set hown
    rw [hself] at hown
    obtain ⟨-, -, rfl⟩ := Option.map_eq_some_iff.1 hown
    rfl

theorem follows_after (h : registry.Follows history) (requests : List Request) :
    (registry.after requests).Follows (history ++ requests) := by
  induction requests generalizing registry history with
  | nil => rwa [List.append_nil]
  | cons request requests ih =>
    have hfirst : (registry.apply request).Follows (history ++ [request]) := by
      cases request with
      | obtain name => exact follows_obtain h name
      | setLevel name level => exact follows_setLevel h name level
      | write record => exact (h.create record.logger).append fun name => rfl
    rw [List.append_cons]
    exact ih hfirst

/-! ## From the beginning -/

/-- The root alone. -/
def bare : Registry := [(rootName, { level := some .warning })]

theorem initial_eq : initial = bare.after loading := rfl

theorem grown_bare : bare.Grown := by
  refine ⟨⟨_, rfl, rfl⟩, fun name logger hlookup hname => ?_⟩
  rw [bare, List.lookup_cons, beq_false_of_ne hname] at hlookup
  cases hlookup

theorem follows_bare : bare.Follows [] := by
  refine ⟨fun name => ?_, fun name level hown => by cases hown⟩
  by_cases hname : name = rootName
  · rw [hname]
    rfl
  · rw [find, bare, List.lookup_cons, beq_false_of_ne hname]
    rfl

theorem after_initial (requests : List Request) :
    initial.after requests = bare.after (loading ++ requests) := by
  rw [initial_eq, after, after, after, List.foldl_append]

theorem grown_initial_after (requests : List Request) : (initial.after requests).Grown := by
  rw [after_initial]
  exact grown_after grown_bare _

theorem follows_initial_after (requests : List Request) :
    (initial.after requests).Follows (loading ++ requests) := by
  rw [after_initial]
  exact follows_after follows_bare _

/-! ## The lines of a record -/

theorem Follows.contains_of_own (h : registry.Follows history)
    (hown : (ownLevel? name history).isSome) : registry.contains name = true := by
  cases hlookup : registry.lookup name with
  | some logger => exact contains_iff.2 ⟨logger, hlookup⟩
  | none =>
    rw [← h.obtained name, find, hlookup] at hown
    cases hown

/-- A logger with a level of its own judges by that. -/
theorem Follows.threshold (h : registry.Follows history) {level : Level}
    (hown : ownLevel? name history = some (some level)) : registry.threshold name = level := by
  obtain ⟨others, hpath⟩ := registry.exists_path_eq_cons name
  rw [Registry.threshold, hpath, List.findSome?_cons, h.level name _ hown]
  rfl

/-- **The handlers on the way of a record** are that of its logger and those of the obtained loggers
above it. -/
theorem exists_handlers_eq_cons (hgrown : registry.Grown) (h : registry.Follows history)
    (hroot : rootName ∉ obtainedNames history) (hname : name ∈ obtainedNames history) :
    ∃ others, registry.handlers name = name :: others ∧ others.Nodup ∧
      others ⊆ obtainedAbove name history ∧
      (NoEmptyPart name → (∀ a ∈ obtainedAbove name history, ¬ a.toList <+: rootName.toList) →
        obtainedAbove name history ⊆ others) := by
  have hobtained : ∀ a, (registry.find a).obtained = true ↔ a ∈ obtainedNames history := by
    intro a
    rw [h.obtained a, isSome_ownLevel?_iff]
  have hthere : ∀ a ∈ obtainedNames history, registry.contains a = true := fun a ha =>
    h.contains_of_own (isSome_ownLevel?_iff.2 ha)
  obtain ⟨others, hpath⟩ := registry.exists_path_eq_cons name
  have hnodup := hgrown.nodup_path (hthere name hname)
  rw [hpath] at hnodup
  obtain ⟨hself, hothers⟩ := List.nodup_cons.1 hnodup
  refine ⟨others.filter fun a => (registry.find a).obtained, ?_, hothers.filter _, ?_, ?_⟩
  · rw [handlers, hpath]
    exact List.filter_cons_of_pos ((hobtained name).2 hname)
  · intro a ha
    obtain ⟨hmem, hfound⟩ := List.mem_filter.1 ha
    have haobtained := (hobtained a).1 hfound
    have hway : a ∈ registry.path name := by
      rw [hpath]
      exact List.mem_cons_of_mem _ hmem
    -- the way up to the root passes through names above and through no others
    rcases hgrown.mem_path (hthere name hname) a hway with rfl | rfl | habove
    · exact absurd hmem hself
    · exact absurd haobtained hroot
    · exact List.mem_filter.2 ⟨haobtained, decide_eq_true habove⟩
  -- a name without empty parts passes through all of them
  · intro hparts hnames a ha
    obtain ⟨haobtained, habove⟩ := List.mem_filter.1 ha
    have habove := of_decide_eq_true habove
    have hway := hgrown.mem_path_of_standsAbove (hthere name hname) (hthere a haobtained)
      (hnames a ha) hparts habove
    rw [hpath] at hway
    rcases List.mem_cons.1 hway with rfl | hmem
    · exact absurd habove.length_lt (Nat.lt_irrefl _)
    · exact List.mem_filter.2 ⟨hmem, (hobtained a).2 haobtained⟩

theorem lines_eq_replicate (h : registry.Follows history) {record : Record} {level : Level}
    (hown : ownLevel? record.logger history = some (some level))
    (hadmits : level.admits record.level = true) :
    registry.lines record =
      List.replicate (registry.handlers record.logger).length record.line := by
  rw [lines, h.threshold hown, if_pos hadmits, List.map_const']

/-- A record is written once or not at all if nothing above its logger has been obtained. -/
theorem lines_of_obtainedAbove_eq_nil (hgrown : registry.Grown) (h : registry.Follows history)
    (hroot : rootName ∉ obtainedNames history) {record : Record} {level : Level}
    (hown : ownLevel? record.logger history = some (some level))
    (hnone : obtainedAbove record.logger history = []) :
    registry.lines record = if level.admits record.level then [record.line] else [] := by
  have hsome : (ownLevel? record.logger history).isSome := by rw [hown]; rfl
  obtain ⟨others, hhandlers, -, hsub, -⟩ :=
    exists_handlers_eq_cons hgrown h hroot (isSome_ownLevel?_iff.1 hsome)
  rw [hnone] at hsub
  obtain rfl := List.eq_nil_of_subset_nil hsub
  rw [lines, h.threshold hown, hhandlers]
  rfl

theorem rootName_not_mem_obtainedNames {requests : List Request}
    (hnames : ∀ request ∈ requests, properName request.name ≠ rootName) :
    rootName ∉ obtainedNames (loading ++ requests) := by
  intro hmem
  obtain ⟨request, hrequest, hobtains⟩ := List.mem_filterMap.1 (List.mem_dedup.1 hmem)
  have hobtain : request = .obtain rootName := by
    cases request with
    | obtain name => rw [Option.some.inj hobtains]
    | setLevel name level => cases hobtains
    | write record => cases hobtains
  rcases List.mem_append.1 hrequest with hloading | hrequest
  · rw [hobtain] at hloading
    exact absurd hloading (by decide)
  · have hne := hnames request hrequest
    rw [hobtain] at hne
    exact hne rfl

/-- Obtaining a logger again changes nothing. -/
theorem Follows.obtain_eq (h : registry.Follows history) (hown : (ownLevel? name history).isSome) :
    registry.obtain name = registry := by
  rw [Registry.obtain, create_of_contains (h.contains_of_own hown)]
  exact if_pos ((h.obtained name).trans hown)

/-- **A record is written once for its logger and once for each obtained logger above it.** It is
judged by what its own logger was set to. If its name has no empty part and none of the others
begins the word `root`, all of them count; if there is none, the record is written exactly once. -/
theorem written_per_obtained (requests : List Request) (record : Record) {level : Level}
    (hnames : ∀ request ∈ requests, properName request.name ≠ rootName)
    (hown : ownLevel? record.logger (loading ++ requests) = some (some level)) :
    let registry := initial.after requests
    let above := obtainedAbove record.logger (loading ++ requests)
    let lines := registry.linesOf (.write record)
    registry.obtain record.logger = registry ∧
      (level.admits record.level = false → lines = []) ∧
      (level.admits record.level = true →
        (above = [] → lines = [record.line]) ∧
        ∃ k ≤ above.length, lines = List.replicate (k + 1) record.line ∧
          (NoEmptyPart record.logger → (∀ a ∈ above, ¬ a.toList <+: rootName.toList) →
            k = above.length)) := by
  intro registry above lines
  have hgrown := grown_initial_after requests
  have hfollows := follows_initial_after requests
  have hroot := rootName_not_mem_obtainedNames hnames
  have hsome : (ownLevel? record.logger (loading ++ requests)).isSome := by rw [hown]; rfl
  have hlines : lines = registry.lines record := by
    change (registry.create record.logger).lines record = registry.lines record
    rw [create_of_contains (hfollows.contains_of_own hsome)]
  obtain ⟨others, hhandlers, hnodup, hsub, hall⟩ :=
    exists_handlers_eq_cons hgrown hfollows hroot (isSome_ownLevel?_iff.1 hsome)
  have hle : others.length ≤ above.length := (hnodup.subperm hsub).length_le
  refine ⟨hfollows.obtain_eq hsome, fun hbelow => ?_, fun hadmits => ?_⟩
  · rw [hlines, Registry.lines, hfollows.threshold hown, hbelow]
    rfl
  · have hcount : lines = List.replicate (others.length + 1) record.line := by
      rw [hlines, lines_eq_replicate hfollows hown hadmits, hhandlers, List.length_cons]
    refine ⟨fun hnone => ?_, others.length, hle, hcount, fun hparts hroot => ?_⟩
    · rw [hlines, lines_of_obtainedAbove_eq_nil hgrown hfollows hroot hown hnone, if_pos hadmits]
    · have habove : above.Nodup := (List.nodup_dedup _).filter _
      exact Nat.le_antisymm hle (habove.subperm (hall hparts hroot)).length_le

/-- The logger above comes later and is set higher, and the record is written by both all the same. -/
theorem written_per_obtained_of_two :
    let requests : List Request := [.obtain "interp.parser", .obtain "interp",
      .setLevel "interp" (some .critical), .obtain "interp.parser"]
    let record : Record := ⟨.warning, "interp.parser", "late"⟩
    (∀ request ∈ requests, properName request.name ≠ rootName) ∧
      ownLevel? record.logger (loading ++ requests) = some (some .info) ∧
      (initial.after requests).linesOf (.write record) = List.replicate 2 record.line := by
  intro requests record
  have hnames : ∀ request ∈ requests, properName request.name ≠ rootName := by decide
  have hown : ownLevel? record.logger (loading ++ requests) = some (some .info) := by decide
  have habove : obtainedAbove record.logger (loading ++ requests) = ["interp"] := by decide +kernel
  obtain ⟨-, -, hwritten⟩ := written_per_obtained requests record hnames hown
  obtain ⟨-, k, -, hlines, hcount⟩ := hwritten rfl
  have hparts : NoEmptyPart record.logger := by decide +kernel
  rw [habove] at hcount
  obtain rfl : k = 1 := hcount hparts (by decide +kernel)
  exact ⟨hnames, hown, hlines⟩

/-- A record need not be written once. -/
theorem not_always_written_once :
    ¬ ∀ (requests : List Request) (record : Record) (level : Level),
      (∀ request ∈ requests, properName request.name ≠ rootName) →
      ownLevel? record.logger (loading ++ requests) = some (some level) →
      level.admits record.level = true →
      (initial.after requests).linesOf (.write record) = [record.line] := by
  intro hall
  have honce := hall [.obtain "interp", .obtain "interp.parser"] ⟨.error, "interp.parser", "boom"⟩
    .info (by decide) (by decide) rfl
  exact absurd honce (by decide +kernel)

end Registry

end ScriptLexer.Log
