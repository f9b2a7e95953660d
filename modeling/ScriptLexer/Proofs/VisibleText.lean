import ScriptLexer.Proofs.Automaton
import ScriptLexer.Proofs.TokenIdentity

/-!
# What is shown can be seen

Tokens and diagnostics are printed for people, and their texts come from anywhere. A printed token
is one line of printable characters because quoted text escapes every other character, whatever the
token holds (`Token.visible_print`, `Token.visible_printFull`). A diagnostic puts no source text
into its message; the one place where a character of the source is shown is the hint, and there a
character that cannot be seen is named by its code point instead.

**The hint says which character it was** (`Diagnostic.help_inj`). A character that stands for itself
and one that is named never give the same hint, and code points are told apart by their digits,
however many there are.
-/

namespace ScriptLexer

namespace Text

/-- A text that can be shown as it is. It lies on one line, since a line feed cannot be shown. -/
def Visible (w : List Char) : Prop := ∀ c ∈ w, isPrintable c = true

/-- A character of ASCII that is no control. -/
def isGraphic (c : Char) : Bool := 0x20 ≤ c.toNat && c.toNat ≤ 0x7E

variable {c : Char} {v w : List Char}

/-- No range of the table reaches into the graphic characters of ASCII. -/
theorem unprintable_outside_graphic :
    (unprintable.all fun range => range.2 < 0x20 || 0x7E < range.1) = true := by decide +kernel

theorem isPrintable_of_isGraphic (h : isGraphic c = true) : isPrintable c = true := by
  obtain ⟨hlow, hhigh⟩ := Bool.and_eq_true_iff.1 h
  have hlow := of_decide_eq_true hlow
  have hhigh := of_decide_eq_true hhigh
  rw [isPrintable, Bool.not_eq_true', List.any_eq_false]
  intro range hrange hin
  obtain ⟨hfirst, hlast⟩ := Bool.and_eq_true_iff.1 hin
  have hfirst := of_decide_eq_true hfirst
  have hlast := of_decide_eq_true hlast
  rcases Bool.or_eq_true_iff.1 (List.all_eq_true.1 unprintable_outside_graphic range hrange) with
    h | h
  · have := of_decide_eq_true h
    omega
  · have := of_decide_eq_true h
    omega

theorem visible_of_all_isGraphic (h : w.all isGraphic = true) : Visible w :=
  fun c hc => isPrintable_of_isGraphic (List.all_eq_true.1 h c hc)

@[simp] theorem visible_nil : Visible [] := fun c hc => by cases hc

@[simp] theorem visible_cons : Visible (c :: w) ↔ isPrintable c = true ∧ Visible w :=
  List.forall_mem_cons

@[simp] theorem visible_append : Visible (v ++ w) ↔ Visible v ∧ Visible w :=
  List.forall_mem_append

theorem newline_not_mem_of_visible (h : Visible w) : '\n' ∉ w := by
  intro hmem
  have hprintable : isPrintable '\n' = false := by decide +kernel
  exact absurd ((h _ hmem).symm.trans hprintable) (by decide)

/-! ## Numerals -/

theorem isPrintable_of_isDigit (h : c.isDigit = true) : isPrintable c = true := by
  have hc : 48 ≤ c.toNat ∧ c.toNat ≤ 57 := Char.isDigit_iff_toNat.1 h
  refine isPrintable_of_isGraphic (Bool.and_eq_true_iff.2 ⟨?_, ?_⟩) <;>
    exact decide_eq_true (by omega)

theorem visible_ofInt (n : Int) : Visible (ofInt n) := by
  have hdigits : ∀ m, Visible (Nat.toDigits 10 m) := fun m c hc =>
    isPrintable_of_isDigit (Nat.isDigit_of_mem_toDigits (by decide) (by decide) hc)
  cases n with
  | ofNat n => exact hdigits n
  | negSucc n => exact visible_cons.2 ⟨isPrintable_of_isGraphic rfl, hdigits _⟩

theorem exists_digitChar_of_mem_toDigits {n : Nat} (h : c ∈ Nat.toDigits 16 n) :
    ∃ d < 16, c = Nat.digitChar d := by
  induction n using Nat.strongRecOn with
  | ind n ih =>
    rcases Nat.lt_or_ge n 16 with hlt | hge
    · rw [Nat.toDigits_of_lt_base hlt] at h
      exact ⟨n, hlt, List.mem_singleton.1 h⟩
    · rw [Nat.toDigits_of_base_le (by decide) hge] at h
      rcases List.mem_append.1 h with h | h
      · exact ih (n / 16) (Nat.div_lt_self (by omega) (by decide)) h
      · exact ⟨n % 16, Nat.mod_lt n (by decide), List.mem_singleton.1 h⟩

theorem exists_digitChar_of_mem_hexPadded {width n : Nat} (h : c ∈ hexPadded width n) :
    ∃ d < 16, c = Nat.digitChar d := by
  rw [hexPadded, List.leftpad] at h
  rcases List.mem_append.1 h with h | h
  · exact ⟨0, by decide, List.eq_of_mem_replicate h⟩
  · exact exists_digitChar_of_mem_toDigits h

theorem visible_hexPadded (width n : Nat) : Visible (hexPadded width n) := by
  have hdigits : ∀ d < 16, isGraphic (Nat.digitChar d) = true := by decide
  intro c hc
  obtain ⟨d, hd, rfl⟩ := exists_digitChar_of_mem_hexPadded hc
  exact isPrintable_of_isGraphic (hdigits d hd)

/-! ## Quoted text -/

theorem visible_escapeCodePoint (c : Char) : Visible (escapeCodePoint c) := by
  have hlead : ∀ width mark, isGraphic mark = true →
      Visible ('\\' :: mark :: hexPadded width c.toNat) := by
    intro width mark hmark
    rw [visible_cons, visible_cons]
    exact ⟨isPrintable_of_isGraphic rfl, isPrintable_of_isGraphic hmark, visible_hexPadded _ _⟩
  rw [escapeCodePoint]
  split
  · exact hlead 2 'x' rfl
  split
  · exact hlead 4 'u' rfl
  · exact hlead 8 'U' rfl

theorem visible_escape {mark : Char} (hmark : isGraphic mark = true) (c : Char) :
    Visible (escape mark c) := by
  rw [escape]
  split
  · next h =>
    rcases h with rfl | rfl
    · exact visible_of_all_isGraphic rfl
    · rw [visible_cons, visible_cons]
      exact ⟨isPrintable_of_isGraphic rfl, isPrintable_of_isGraphic hmark, visible_nil⟩
  split
  · exact visible_of_all_isGraphic rfl
  split
  · exact visible_of_all_isGraphic rfl
  split
  · exact visible_of_all_isGraphic rfl
  split
  · next h => exact visible_cons.2 ⟨h, visible_nil⟩
  · exact visible_escapeCodePoint c

/-- **Quoted text can be seen**, whatever it quotes. -/
theorem visible_quoted (s : List Char) : Visible (quoted s) := by
  have hmark : isGraphic (quoteMark s) = true := by
    rcases quoteMark_eq s with h | h <;> rw [h] <;> rfl
  intro c hc
  simp only [quoted, List.cons_append, List.mem_cons, List.mem_append, List.mem_flatMap,
    List.not_mem_nil, or_false] at hc
  rcases hc with rfl | ⟨d, -, hc⟩ | rfl
  · exact isPrintable_of_isGraphic hmark
  · exact visible_escape hmark d c hc
  · exact isPrintable_of_isGraphic hmark

/-! ## Code points -/

theorem visible_codePoint (c : Char) : Visible (codePoint c) := by
  have hdigits : ∀ d < 16, isGraphic (Nat.digitChar d).toUpper = true := by decide
  rw [codePoint, visible_cons, visible_cons]
  refine ⟨isPrintable_of_isGraphic rfl, isPrintable_of_isGraphic rfl, ?_⟩
  intro b hb
  obtain ⟨a, ha, rfl⟩ := List.mem_map.1 hb
  obtain ⟨d, hd, rfl⟩ := exists_digitChar_of_mem_hexPadded ha
  exact isPrintable_of_isGraphic (hdigits d hd)

/-- The digits of a code point say which one it is, whatever their number. -/
theorem codePoint_inj {d : Char} (h : codePoint c = codePoint d) : c = d := by
  have hlower : ∀ d < 16, (Nat.digitChar d).toUpper.toLower = Nat.digitChar d := by decide
  have hback : ∀ n, ((hexPadded 4 n).map Char.toUpper).map Char.toLower = hexPadded 4 n := by
    intro n
    rw [List.map_map]
    refine (List.map_congr_left fun b hb => ?_).trans (List.map_id _)
    obtain ⟨d, hd, rfl⟩ := exists_digitChar_of_mem_hexPadded hb
    exact hlower d hd
  have hdigits := congrArg (List.map Char.toLower) (List.cons.inj (List.cons.inj h).2).2
  rw [hback, hback] at hdigits
  have hnat := congrArg ofHexDigits hdigits
  rw [ofHexDigits_hexPadded, ofHexDigits_hexPadded] at hnat
  exact Char.toNat_inj.1 hnat

end Text

open Text

/-! ## Tokens -/

theorem visible_write (x : Binary64) : Visible x.write := by
  intro c hc
  rcases mem_write hc with h | h
  · exact isPrintable_of_isDigit h
  · have hall : Visible ['.', 'e', '+', '-', 'i', 'n', 'f', 'a'] := visible_of_all_isGraphic rfl
    exact hall c h

theorem Literal.visible_print (v : Literal) : Visible v.print := by
  cases v with
  | text s => exact visible_quoted s
  | number x => exact visible_write x

theorem Kind.visible_name (kind : Kind) : Visible kind.name.toList := by
  cases kind <;> exact visible_of_all_isGraphic (by decide)

namespace Token

/-- **The short form of a token can be seen**, whatever the token is made of. -/
theorem visible_print (t : Token) : Visible t.print := by
  have harrow : Visible (printArrow t.literal) := by
    cases t.literal with
    | none => exact visible_nil
    | some v => exact visible_append.2 ⟨visible_of_all_isGraphic rfl, v.visible_print⟩
  rw [print_eq, visible_append, visible_cons, visible_append, visible_append]
  exact ⟨t.kind.visible_name, isPrintable_of_isGraphic rfl, visible_quoted _, harrow,
    visible_of_all_isGraphic rfl⟩

/-- **So can the full form.** -/
theorem visible_printFull (t : Token) : Visible t.printFull := by
  have hcomma : ∀ w, Visible w → Visible (',' :: ' ' :: w) := fun w hw =>
    visible_cons.2 ⟨isPrintable_of_isGraphic rfl, visible_cons.2 ⟨isPrintable_of_isGraphic rfl, hw⟩⟩
  have hvalue : Visible (printValue t.literal) := by
    cases t.literal with
    | none => exact visible_of_all_isGraphic rfl
    | some v => exact v.visible_print
  rw [printFull_eq, visible_append, visible_append]
  refine ⟨visible_of_all_isGraphic rfl, t.kind.visible_name, hcomma _ ?_⟩
  rw [visible_append]
  refine ⟨visible_quoted _, hcomma _ ?_⟩
  rw [visible_append]
  refine ⟨hvalue, hcomma _ ?_⟩
  rw [visible_append]
  exact ⟨visible_ofInt _, visible_of_all_isGraphic rfl⟩

end Token

/-! ## Diagnostics -/

namespace Diagnostic

/-- The lines of a printed diagnostic that has a code and a hint: header, place and hint. -/
def lines (d : Diagnostic) (code hint : String) : List (List Char) :=
  [(upperCase d.severity).toList ++ ('[' :: code.toList ++ "]: ".toList ++ d.message.toList),
    "  --> ".toList ++ (d.filename.toList ++ ':' :: ofInt d.line),
    "  help: ".toList ++ hint.toList]

/-- The diagnostic names the file, and every other text of it is made up by the scanner. -/
structure Legible (d : Diagnostic) (filename code hint : String) : Prop where
  severity : d.severity = "error"
  filename : d.filename = filename
  code : d.code = some code ∧ code ≠ "" ∧ Visible code.toList
  hint : d.helpText = some hint ∧ hint ≠ "" ∧ Visible hint.toList
  message : Visible d.message.toList

variable {c c' : Char} {d : Diagnostic} {filename code hint : String}

theorem Legible.print (h : d.Legible filename code hint) :
    d.print.toList = (d.lines code hint).flatMap (· ++ ['\n']) := by
  obtain ⟨hcode, hcode', -⟩ := h.code
  obtain ⟨hhint, hhint', -⟩ := h.hint
  rw [Diagnostic.print, hcode, hhint]
  simp [textOf, hcode', hhint', lines]

theorem Legible.visible (h : d.Legible filename code hint) (hfilename : Visible filename.toList) :
    ∀ line ∈ d.lines code hint, Visible line ∧ '\n' ∉ line := by
  have hheader : Visible (upperCase d.severity).toList := by
    rw [h.severity]
    exact visible_of_all_isGraphic (by decide +kernel)
  have hall : ∀ line ∈ d.lines code hint, Visible line := by
    rw [lines, h.filename]
    refine List.forall_mem_cons.2 ⟨?_, List.forall_mem_cons.2 ⟨?_, List.forall_mem_singleton.2 ?_⟩⟩
    · rw [visible_append, visible_append, visible_append, visible_cons]
      exact ⟨hheader, ⟨⟨isPrintable_of_isGraphic rfl, h.code.2.2⟩, visible_of_all_isGraphic rfl⟩,
        h.message⟩
    · rw [visible_append, visible_append, visible_cons]
      exact ⟨visible_of_all_isGraphic rfl, hfilename, isPrintable_of_isGraphic rfl, visible_ofInt _⟩
    · rw [visible_append]
      exact ⟨visible_of_all_isGraphic rfl, h.hint.2.2⟩
  exact fun line hline => ⟨hall line hline, newline_not_mem_of_visible (hall line hline)⟩

theorem toList_append_ofList_append (a b : String) (w : List Char) :
    (a ++ String.ofList w ++ b).toList = a.toList ++ (w ++ b.toList) := by
  rw [String.toList_append, String.toList_append, String.toList_ofList, List.append_assoc]

theorem toList_visibleHelp (c : Char) : (visibleHelp [c]).toList =
    "The character '".toList ++ ([c] ++ "' is not valid in source code.".toList) :=
  toList_append_ofList_append _ _ _

theorem toList_invisibleHelp (c : Char) : (invisibleHelp c).toList =
    "Non-printable character (Unicode: ".toList ++ (codePoint c ++ ") is not allowed.".toList) :=
  toList_append_ofList_append _ _ _

theorem help_ne_empty (c : Char) :
    (if isPrintable c then visibleHelp [c] else invisibleHelp c) ≠ "" := by
  rw [Ne, ← String.toList_eq_nil_iff]
  split
  · rw [toList_visibleHelp]
    exact List.append_ne_nil_of_left_ne_nil (by decide) _
  · rw [toList_invisibleHelp]
    exact List.append_ne_nil_of_left_ne_nil (by decide) _

theorem visible_visibleHelp (h : isPrintable c = true) : Visible (visibleHelp [c]).toList := by
  rw [toList_visibleHelp, visible_append, visible_append]
  exact ⟨visible_of_all_isGraphic (by decide +kernel), visible_cons.2 ⟨h, visible_nil⟩,
    visible_of_all_isGraphic (by decide +kernel)⟩

theorem visible_invisibleHelp (c : Char) : Visible (invisibleHelp c).toList := by
  rw [toList_invisibleHelp, visible_append, visible_append]
  exact ⟨visible_of_all_isGraphic (by decide +kernel), visible_codePoint c,
    visible_of_all_isGraphic (by decide +kernel)⟩

theorem legible_unexpectedCharacter (c : Char) (line : Int) (filename : String) :
    ∃ hint, (unexpectedCharacter c line filename).Legible filename "L001" hint := by
  have hmessage : Visible unexpectedCharacterMessage.toList :=
    visible_of_all_isGraphic (by decide +kernel)
  refine ⟨_, rfl, rfl, ⟨rfl, by decide, visible_of_all_isGraphic rfl⟩,
    ⟨rfl, help_ne_empty c, ?_⟩, hmessage⟩
  split
  · next h => exact visible_visibleHelp h
  · exact visible_invisibleHelp c

theorem legible_unterminatedString (line : Int) (filename : String) :
    ∃ hint, (unterminatedString line filename).Legible filename "L002" hint := by
  have hmessage : Visible unterminatedStringMessage.toList :=
    visible_of_all_isGraphic (by decide +kernel)
  exact ⟨_, rfl, rfl, ⟨rfl, by decide, visible_of_all_isGraphic rfl⟩,
    ⟨rfl, by decide, visible_of_all_isGraphic (by decide +kernel)⟩, hmessage⟩

/-- A character that stands for itself and one that is named are told apart by the first letter. -/
theorem visibleHelp_ne (a b : Char) : visibleHelp [a] ≠ invisibleHelp b := by
  intro h
  have hlist := congrArg String.toList h
  rw [toList_visibleHelp, toList_invisibleHelp] at hlist
  exact absurd (List.cons.inj hlist).1 (by decide)

/-- **The hint says which character it was.** -/
theorem help_inj {line line' : Int} {filename filename' : String}
    (h : (unexpectedCharacter c line filename).helpText =
      (unexpectedCharacter c' line' filename').helpText) : c = c' := by
  have hhint := congrArg String.toList (Option.some.inj h)
  split at hhint <;> split at hhint
  · rw [toList_visibleHelp, toList_visibleHelp] at hhint
    exact (List.cons.inj (List.append_cancel_left hhint)).1
  · exact absurd (String.toList_inj.1 hhint) (visibleHelp_ne c c')
  · exact absurd (String.toList_inj.1 hhint).symm (visibleHelp_ne c' c)
  · rw [toList_invisibleHelp, toList_invisibleHelp] at hhint
    exact codePoint_inj (List.append_cancel_right (List.append_cancel_left hhint))

end Diagnostic

/-! ## The diagnostics of a scan -/

namespace Session

/-- The scan reports `c`, a faulty character of its text, by the diagnostic `d`. -/
def Blames (s : Session) (c : Char) (d : Diagnostic) : Prop :=
  ∃ k i : Nat, (Mode.code.faults 0 s.source.text)[k]? = some (i, c) ∧ s.scan.errors[k]? = some d

variable {s s' : Session} {c c' : Char} {d d' : Diagnostic}

/-- Whatever the sink refuses, the errors of a scan are the first faults of its text. -/
theorem exists_errors_scan (s : Session) :
    ∃ n, s.scan.errors = (faultsOf s.source.filename s.source.text).take n := by
  obtain ⟨n, hn⟩ := exists_faults_session { s with errors := #[] } s.source.scan.diagnostics
  refine ⟨n, ?_⟩
  rw [Outcome.errors, session_scan, hn, lookup_enterAll rfl, diagnostics_scan_eq_faultsOf]

theorem getElem?_faultsOf_of_errors {k : Nat} (h : s.scan.errors[k]? = some d) :
    (faultsOf s.source.filename s.source.text)[k]? = some d := by
  obtain ⟨n, hn⟩ := exists_errors_scan s
  rw [hn, List.getElem?_take] at h
  split at h
  · exact h
  · cases h

/-- A fault at place `k` of the list is the faulty character at that place, or the open string
behind all of them. -/
theorem errors_cases {k : Nat} (h : s.scan.errors[k]? = some d) :
    (∃ i c, (Mode.code.faults 0 s.source.text)[k]? = some (i, c) ∧
      d = .unexpectedCharacter c (lineAt s.source.text i) s.source.filename) ∨
    ((Mode.code.faults 0 s.source.text)[k]? = none ∧
      ∃ line, d = .unterminatedString line s.source.filename) := by
  have hfault := getElem?_faultsOf_of_errors h
  rw [faultsOf, List.getElem?_append] at hfault
  split at hfault
  · next hlt =>
    rw [List.getElem?_map] at hfault
    obtain ⟨⟨i, c⟩, hx, rfl⟩ := Option.map_eq_some_iff.1 hfault
    exact Or.inl ⟨i, c, hx, rfl⟩
  · next hge =>
    refine Or.inr ⟨List.getElem?_eq_none (by simpa using hge), ?_⟩
    have hmem := List.mem_of_getElem? hfault
    split at hmem
    · exact ⟨_, List.mem_singleton.1 hmem⟩
    · cases hmem

theorem Blames.eq (h : s.Blames c d) :
    ∃ line, d = .unexpectedCharacter c line s.source.filename := by
  obtain ⟨k, i, hfault, herror⟩ := h
  rcases errors_cases herror with ⟨i', c', hfault', rfl⟩ | ⟨hnone, -⟩
  · rw [hfault] at hfault'
    obtain ⟨rfl, rfl⟩ := Prod.mk.inj (Option.some.inj hfault')
    exact ⟨_, rfl⟩
  · rw [hfault] at hnone
    cases hnone

/-- The diagnostics L001 of a scan are those that blame a character. -/
theorem mem_errors_and_code_iff :
    d ∈ s.scan.errors ∧ d.code = some "L001" ↔ ∃ c, s.Blames c d := by
  constructor
  · rintro ⟨hmem, hcode⟩
    obtain ⟨k, hk⟩ := List.mem_iff_getElem?.1 hmem
    rcases errors_cases hk with ⟨i, c, hfault, -⟩ | ⟨-, line, rfl⟩
    · exact ⟨c, k, i, hfault, hk⟩
    · exact absurd hcode (by simp [Diagnostic.unterminatedString])
  · rintro ⟨c, h⟩
    obtain ⟨line, hline⟩ := h.eq
    obtain ⟨k, i, -, herror⟩ := h
    refine ⟨List.mem_of_getElem? herror, ?_⟩
    rw [hline]
    rfl

theorem legible_of_mem_errors (h : d ∈ s.scan.errors) :
    ∃ code hint, d.Legible s.source.filename code hint := by
  obtain ⟨k, hk⟩ := List.mem_iff_getElem?.1 h
  rcases errors_cases hk with ⟨i, c, -, rfl⟩ | ⟨-, line, rfl⟩
  · exact ⟨_, Diagnostic.legible_unexpectedCharacter c _ _⟩
  · exact ⟨_, Diagnostic.legible_unterminatedString line _⟩

/-- **Nothing unprintable is shown.** A printed token is one line of printable characters, whatever
it is made of. Under a printable file name each diagnostic of a scan is printed on exactly three
such lines, and the hints of two stray characters are equal only if the characters are. -/
theorem shown_texts_visible :
    (∀ t : Token, Visible t.print ∧ Visible t.printFull) ∧
    (∀ s : Session, Visible s.source.filename.toList → ∀ d ∈ s.scan.errors, ∃ code hint,
      d.code = some code ∧ d.helpText = some hint ∧ d.filename = s.source.filename ∧
      d.print.toList = (d.lines code hint).flatMap (· ++ ['\n']) ∧
      ∀ line ∈ d.lines code hint, Visible line ∧ '\n' ∉ line) ∧
    (∀ (s : Session) (d : Diagnostic),
      d ∈ s.scan.errors ∧ d.code = some "L001" ↔ ∃ c, s.Blames c d) ∧
    ∀ (s s' : Session) (c c' : Char) (d d' : Diagnostic), s.Blames c d → s'.Blames c' d' →
      (d.helpText = d'.helpText ↔ c = c') := by
  refine ⟨fun t => ⟨t.visible_print, t.visible_printFull⟩, ?_, ?_, ?_⟩
  · intro s hfilename d hd
    obtain ⟨code, hint, hlegible⟩ := legible_of_mem_errors hd
    exact ⟨code, hint, hlegible.code.1, hlegible.hint.1, hlegible.filename, hlegible.print,
      hlegible.visible hfilename⟩
  · intro s d
    exact mem_errors_and_code_iff
  · intro s s' c c' d d' h h'
    obtain ⟨line, rfl⟩ := h.eq
    obtain ⟨line', rfl⟩ := h'.eq
    constructor
    · exact Diagnostic.help_inj
    · rintro rfl
      rfl

/-- A control character and a line separator, neither of which may be shown as it is, and an open
string. -/
theorem shown_texts_visible_of_controls :
    let s := start { text := ['\x07', '\u2028', '"'], filename := "a.b" }
    let bell := Diagnostic.unexpectedCharacter '\x07' 1 "a.b"
    let separator := Diagnostic.unexpectedCharacter '\u2028' 1 "a.b"
    Visible s.source.filename.toList ∧ s.Blames '\x07' bell ∧ s.Blames '\u2028' separator ∧
      bell.helpText ≠ separator.helpText ∧
      ∃ code hint, separator.print.toList = (separator.lines code hint).flatMap (· ++ ['\n']) ∧
        ∀ line ∈ separator.lines code hint, Visible line ∧ '\n' ∉ line := by
  intro s bell separator
  have hfilename : Visible s.source.filename.toList := visible_of_all_isGraphic (by decide)
  have hopen : s.sink.Open := fun k => rfl
  have herrors : s.scan.errors = [bell, separator, .unterminatedString 1 "a.b"] :=
    (lookup_scan_of_open hopen).trans (by decide +kernel)
  have hfaults : Mode.code.faults 0 s.source.text = [(0, '\x07'), (1, '\u2028')] := by
    decide +kernel
  have hbell : s.Blames '\x07' bell := ⟨0, 0, by rw [hfaults]; rfl, by rw [herrors]; rfl⟩
  have hseparator : s.Blames '\u2028' separator :=
    ⟨1, 1, by rw [hfaults]; rfl, by rw [herrors]; rfl⟩
  obtain ⟨-, hlines, -, hhelp⟩ := shown_texts_visible
  obtain ⟨code, hint, -, -, -, hprint, hvisible⟩ :=
    hlines s hfilename separator (by rw [herrors]; simp)
  refine ⟨hfilename, hbell, hseparator, ?_, code, hint, hprint, hvisible⟩
  intro hsame
  exact absurd ((hhelp s s _ _ _ _ hbell hseparator).1 hsame) (by decide)

end Session

end ScriptLexer
