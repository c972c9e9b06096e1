import MblCore.App.Versions

/-!
# Control data

The control data of a package consist of lines of the form `field: value`.  The value is what is
after the first colon, and may contain colons.  `parse_app_info` takes a line apart at every colon,
so it reads the control data as they are meant just if no line has a second colon.
-/

namespace App

open Prog hiding pure throw bind

/-! ### What the lines say -/

/-- The field of a line and its value: what is before the first colon, and what is after it without
the white space at its beginning.  A line without a colon says nothing. -/
def entryOf (line : Text) : Option (Text × Text) :=
  if ':' ∈ line then
    some (rstrip (line.takeWhile (· != ':')), lstrip ((line.dropWhile (· != ':')).drop 1))
  else none

/-- The entries of the lines, the last one first. -/
def entriesOf (lines : List Text) : List (Text × Text) :=
  (lines.filterMap entryOf).reverse

/-- The value of a field, by its last line. -/
def valueOf (app_ctrl_data field : Text) : Option Text :=
  (entriesOf (app_ctrl_data.splitOn '\n')).lookup field

/-- No line has more than one colon. -/
def OneColon (app_ctrl_data : Text) : Prop :=
  ∀ line ∈ app_ctrl_data.splitOn '\n', line.count ':' ≤ 1

instance : DecidablePred OneColon :=
  fun _ => List.decidableBAll _ _

/-- What `opkg info` prints is UTF-8, and control data in which no line has more than one colon if
the command succeeds. -/
def Readable (result : CmdResult) : Prop :=
  ∃ text, result.stdout.text = some text ∧ (result.ok = true → OneColon text)

/-! ### Taking lines apart -/

variable {line : Text} {lines : List Text}

theorem length_splitOn (c : Char) (t : Text) :
  (t.splitOn c).length = t.count c + 1
  := by
  induction t with
  | nil => rfl
  | cons b t ih =>
      rw [List.splitOn_cons_eq_if_modifyHead]
      by_cases hb : b = c
      · simp [hb, ih]
      · simp [hb, ih]

/-- A line with one colon at most is taken apart there. -/
theorem parseLine_of_count (h : line.count ':' ≤ 1) :
  parseLine line = .ok (entryOf line)
  := by
  by_cases hmem : ':' ∈ line
  · obtain ⟨field, value, rfl, hfield⟩ := List.eq_append_cons_of_mem hmem
    have hvalue : ':' ∉ value := by
      rw [List.count_append, List.count_cons_self] at h
      apply List.count_eq_zero.mp
      omega
    have hne : ∀ c ∈ field, (c != ':') = true := by
      intro c hc
      rw [bne_iff_ne]
      rintro rfl
      exact hfield hc
    rw [parseLine, List.splitOn_append_cons_self_of_not_mem hfield,
      List.splitOn_eq_singleton hvalue, entryOf, if_pos hmem,
      List.takeWhile_append_of_pos hne, List.dropWhile_append_of_pos hne]
    simp
  · rw [parseLine, List.splitOn_eq_singleton hmem, entryOf, if_neg hmem]

theorem parseLines_of_count (h : ∀ line ∈ lines, line.count ':' ≤ 1)
    (pkg_info : List (Text × Text)) :
  parseLines lines pkg_info = .ok (entriesOf lines ++ pkg_info)
  := by
  induction lines generalizing pkg_info with
  | nil => rfl
  | cons line lines ih =>
      have hrest := ih fun l hl => h l (List.mem_cons_of_mem line hl)
      rw [parseLines, parseLine_of_count (h line List.mem_cons_self)]
      cases hentry : entryOf line with
      | none => simp [bind, Except.bind, hrest, entriesOf, hentry]
      | some entry => simp [bind, Except.bind, hrest, entriesOf, hentry]

/-- A line with a second colon cannot be taken apart, and the exception is not the one for
incorrect control data. -/
theorem parseLines_of_not_oneColon {app_ctrl_data : Text} (h : ¬ OneColon app_ctrl_data) :
  ∃ e, parseLines (app_ctrl_data.splitOn '\n') [] = .error e ∧ e.cls = .ValueError
  := by
  simp only [OneColon, not_forall, not_le] at h
  obtain ⟨line, hline, hcount⟩ := h
  obtain ⟨e, he⟩ : ∃ e, parseLines (app_ctrl_data.splitOn '\n') [] = .error e := by
    rw [parseLines_eq_error]
    use line, hline
    rw [length_splitOn]
    omega
  exact ⟨e, he, parseLines_error_cls he⟩

/-! ### What `parse_app_info` makes of them -/

/-- The control data in the output of `opkg info`, or the exception that is raised. -/
def appInfoOf (app_pkg : Text) (result : CmdResult) : Except PyException (List (Text × Text)) :=
  match result.stdout.text with
  | none => .error ⟨.UnicodeDecodeError, []⟩
  | some text =>
      if result.ok then parseControlData app_pkg text
      else .error ⟨.AppInfoParserError, cmdMessage "Getting package info from '".toList app_pkg
        "' failed, error: ".toList text []⟩

variable {app_pkg : Text} {x : Choice}

theorem run_parseAppInfo (xs : List Choice) (d : Device) :
  run machine (parseAppInfo app_pkg) (x :: xs) d
    = run machine (ofExcept (appInfoOf app_pkg (opkgInfo x))) xs d
  := by
  rw [parseAppInfo, run_bind]
  change run machine (decode (opkgInfo x).stdout >>= _) xs d = _
  unfold decode appInfoOf
  cases (opkgInfo x).stdout.text with
  | none => rfl
  | some text =>
      change run machine (if (opkgInfo x).ok = true then _ else _) xs d = _
      split <;> rfl

/-- Control data with one colon in a line at most are read. -/
theorem parseControlData_of_oneColon {text : Text} (h : OneColon text)
    (hname : valueOf text "Package".toList ≠ none) :
  parseControlData app_pkg text = .ok (entriesOf (text.splitOn '\n'))
  := by
  rw [parseControlData, parseLines_of_count h, List.append_nil]
  change (if valueOf text "Package".toList = none then _ else _) = _
  rw [if_neg hname]
  rfl

/-- Without a second colon in a line there is no exception but one. -/
theorem parseControlData_error {text : Text} (h : OneColon text) {e : PyException}
    (he : parseControlData app_pkg text = .error e) :
  e.cls = .AppInfoParserError
  := by
  rw [parseControlData, parseLines_of_count h] at he
  change (if _ then _ else _) = _ at he
  split at he
  · rw [← Except.error.inj he]
  · contradiction

/-- When the command succeeds and there is a `Package` field, every field is mapped to the value of
its last line, and there are no exceptions but those for incorrect control data. -/
structure ParsesAtFirstColon (result : CmdResult)
    (outcome : Outcome PyException (List (Text × Text))) : Prop where
  parses : ∀ app_ctrl_data, result.ok = true → result.stdout.text = some app_ctrl_data →
    valueOf app_ctrl_data "Package".toList ≠ none →
      ∃ pkg_info, outcome = .returned pkg_info ∧
        ∀ field, pkg_info.lookup field = valueOf app_ctrl_data field
  raises : ∀ e, outcome = .raised e → e.cls = .AppInfoParserError

/-- `parse_app_info` reads control data as they are meant just if what is printed can be decoded,
and no line of the control data has more than one colon. -/
theorem parsesAtFirstColon_iff (app_pkg : Text) (x : Choice) (xs : List Choice) (d : Device) :
  ParsesAtFirstColon (opkgInfo x) (run machine (parseAppInfo app_pkg) (x :: xs) d).1
    ↔ Readable (opkgInfo x)
  := by
  rw [run_parseAppInfo]
  generalize opkgInfo x = result
  obtain ⟨ok, returncode, text, json⟩ := result
  cases text with
  | none =>
      constructor
      · intro h
        exact absurd (h.raises _ rfl) (by decide)
      · rintro ⟨text, htext, -⟩
        contradiction
  | some text =>
      cases ok with
      | false =>
          constructor
          · exact fun _ => ⟨text, rfl, fun h => absurd h Bool.false_ne_true⟩
          · intro _
            constructor
            · exact fun _ h => absurd h Bool.false_ne_true
            · rintro e he
              obtain rfl := Outcome.raised.inj he
              rfl
      | true =>
          by_cases hcolon : OneColon text
          · constructor
            · exact fun _ => ⟨text, rfl, fun _ => hcolon⟩
            · intro _
              constructor
              · rintro app_ctrl_data - htext hname
                obtain rfl := Option.some.inj htext
                use entriesOf (text.splitOn '\n')
                exact ⟨run_ofExcept_returned.mpr (parseControlData_of_oneColon hcolon hname),
                  fun _ => rfl⟩
              · intro e he
                rw [run_ofExcept_raised] at he
                exact parseControlData_error hcolon he
          · constructor
            · intro h
              obtain ⟨e, he, hcls⟩ := parseLines_of_not_oneColon hcolon
              have hparse : parseControlData app_pkg text = .error e := by
                rw [parseControlData, he]
                rfl
              have hraises := h.raises e (run_ofExcept_raised.mpr hparse)
              rw [hcls] at hraises
              contradiction
            · rintro ⟨text', htext, honce⟩
              obtain rfl := Option.some.inj htext
              exact absurd (honce rfl) hcolon

/-- Control data with a URL in them. -/
def infoWithUrl : Choice where
  kind := .prints
  stdout := { text := some "Package: app\nHomepage: http://localhost".toList }

/-- A second colon in a value is an exception that nobody expects. -/
theorem not_parsesAtFirstColon_of_url :
  ¬ ParsesAtFirstColon (opkgInfo infoWithUrl)
      (run machine (parseAppInfo "app.ipk".toList) [infoWithUrl] bareDevice).1
  := by
  intro h
  have hraises := h.raises ⟨.ValueError, []⟩ (by rfl)
  contradiction

end App
