import MblCore.Lib.KeySort
import MblCore.Lib.FileTree

/-!
# What the Python programs are written in

The exceptions of the programs that manage applications, JSON documents as Python sees them,
and paths.  A path leads from the root of the file system down, without `.` and `..`; there are
no symbolic links.
-/

namespace App

open FileTree

/-! ### Exceptions -/

/-- The classes of exceptions the programs raise. -/
inductive ExceptionClass
  | ContainerStateError
  | ContainerAlreadyExistError
  | ContainerCreationError
  | ContainerStartError
  | ContainerKillError
  | ContainerDeleteError
  | AppStopTimeoutError
  | AppNotInstalled
  | AppInfoParserError
  | AppIdError
  | AppInstallError
  | AppUninstallError
  | AppPathInexistent
  | IllegalPackage
  | UnicodeDecodeError
  | JSONDecodeError
  | KeyError
  | ValueError
  | TypeError
  | OSError
  | StopIteration
deriving DecidableEq

/-- An exception.  The messages of the exceptions Python itself raises are left out. -/
structure PyException where
  cls : ExceptionClass
  /-- `str(error)`. -/
  msg : Text := []
deriving DecidableEq

/-- A text occurs in another, as by Python's `in`. -/
def occursIn (s t : Text) : Bool :=
  decide (s <:+: t)

/-! ### Texts -/

/-- A character is white space. -/
def isSpace (c : Char) : Bool :=
  let n := c.toNat
  (9 ≤ n && n ≤ 13) || (28 ≤ n && n ≤ 32) || n == 133 || n == 160 || n == 5760
    || (8192 ≤ n && n ≤ 8202) || n == 8232 || n == 8233 || n == 8239 || n == 8287 || n == 12288

def lstrip (t : Text) : Text :=
  t.dropWhile isSpace

def rstrip (t : Text) : Text :=
  t.rdropWhile isSpace

/-- A text without white space is not changed when white space is dropped at its ends. -/
theorem dropSpace_eq_self {space : Char → Bool} {t : Text} (h : ∀ c ∈ t, space c = false) :
  (t.rdropWhile space).dropWhile space = t
  := by
  rw [List.rdropWhile_eq_self_iff.mpr, List.dropWhile_eq_self_iff.mpr]
  · intro hpos
    simp [h _ (List.getElem_mem hpos)]
  · intro hnonempty
    simp [h _ (List.getLast_mem hnonempty)]

theorem strip_eq_self {t : Text} (h : ∀ c ∈ t, isSpace c = false) :
  lstrip (rstrip t) = t
  := dropSpace_eq_self h

/-- `int` leaves the separators of ASCII, which `strip` removes. -/
def isIntSpace (c : Char) : Bool :=
  isSpace c && !(28 ≤ c.toNat && c.toNat ≤ 31)

/-- `int(text)`: decimal digits of any script, perhaps with a sign, with white space around them and
with single underscores between them. -/
def intOf? (text : Text) : Option ℤ :=
  let digits (t : Text) : Option ℕ :=
    if (t.splitOn '_').all fun piece => (Text.digitsValue? piece).isSome then
      Text.digitsValue? (t.splitOn '_').flatten
    else none
  match (text.rdropWhile isIntSpace).dropWhile isIntSpace with
  | '-' :: t => (digits t).map fun n => -(n : ℤ)
  | '+' :: t => (digits t).map Int.ofNat
  | t => (digits t).map Int.ofNat

/-- `str(n)`. -/
def intText : ℤ → Text
  | .ofNat n => Text.decimal n
  | .negSucc n => '-' :: Text.decimal (n + 1)

/-! ### JSON documents -/

/-- What `json.loads` returns. -/
inductive Json
  | null
  | bool (b : Bool)
  | num (literal : Text)
  | str (s : Text)
  | arr (items : List Json)
  | obj (fields : List (Text × Json))

/-- `key in document`. -/
def Json.contains (key : Text) : Json → Except PyException Bool
  | .obj fields => .ok (fields.any fun field => field.1 == key)
  | .arr items => .ok (items.any fun
      | .str s => s == key
      | _ => false)
  | .str s => .ok (occursIn key s)
  | .null | .bool _ | .num _ => .error ⟨.TypeError, []⟩

/-- `document[key]`. -/
def Json.getItem (key : Text) : Json → Except PyException Json
  | .obj fields =>
      match fields.find? fun field => field.1 == key with
      | some field => .ok field.2
      | none => .error ⟨.KeyError, []⟩
  | _ => .error ⟨.TypeError, []⟩

theorem Json.contains_error {key : Text} {document : Json} {e : PyException}
    (h : document.contains key = .error e) :
  e.cls = .TypeError
  := by
  cases document <;> simp only [Json.contains, reduceCtorEq, Except.error.injEq] at h <;>
    rw [← h]

theorem Json.getItem_error {key : Text} {document : Json} {e : PyException}
    (h : document.getItem key = .error e) :
  e.cls = .KeyError ∨ e.cls = .TypeError
  := by
  unfold Json.getItem at h
  split at h
  · split at h
    · contradiction
    · exact Or.inl (by rw [← Except.error.inj h])
  · exact Or.inr (by rw [← Except.error.inj h])

/-- `document in names`, for a list of strings. -/
def Json.isIn (names : List Text) : Json → Bool
  | .str s => names.contains s
  | _ => false

/-- What `json.load` makes of a file: a document, unless the file is not UTF-8 or not JSON. -/
inductive Content
  | undecodable
  | notJson
  | json (document : Json)

def Content.load : Content → Except PyException Json
  | .undecodable => .error ⟨.UnicodeDecodeError, []⟩
  | .notJson => .error ⟨.JSONDecodeError, []⟩
  | .json document => .ok document

theorem Content.load_error {content : Content} {e : PyException}
    (h : content.load = .error e) :
  e.cls = .UnicodeDecodeError ∨ e.cls = .JSONDecodeError
  := by
  cases content with
  | undecodable => exact Or.inl (by rw [← Except.error.inj h])
  | notJson => exact Or.inr (by rw [← Except.error.inj h])
  | json document => contradiction

/-- The file system. -/
abbrev Files := FileTree Content

/-! ### Paths -/

/-- The text of a path. -/
def pathText (p : FilePath) : Text :=
  p.flatMap fun name => '/' :: name

/-- `os.path.join`, and the path the result leads to. -/
def joinPath (dir : FilePath) (name : Text) : FilePath :=
  (name.splitOn '/').foldl
    (fun p name =>
      if name = [] ∨ name = ".".toList then p
      else if name = "..".toList then p.dropLast
      else p ++ [name])
    (if name.head? = some '/' then [] else dir)

/-- `os.path.basename`. -/
def basename (text : Text) : Text :=
  (text.reverse.takeWhile (· != '/')).reverse

/-- What is raised in place of a sorted list. -/
def sortException : Text.SortError → PyException
  | .value => ⟨.ValueError, []⟩
  | .type => ⟨.TypeError, []⟩

/-- The name is that of an entry of a directory. -/
def PlainName (name : Text) : Prop :=
  name ≠ [] ∧ '/' ∉ name ∧ name ≠ ".".toList ∧ name ≠ "..".toList

instance : DecidablePred PlainName :=
  fun _ => inferInstanceAs (Decidable (_ ∧ _))

/-- The entry of a directory with a plain name. -/
theorem joinPath_of_plain (dir : FilePath) {name : Text} (h : PlainName name) :
  joinPath dir name = dir ++ [name]
  := by
  obtain ⟨hne, hslash, hdot, hdots⟩ := h
  have hhead : name.head? ≠ some '/' := by
    intro h
    apply hslash
    exact List.mem_of_mem_head? h
  rw [joinPath, List.splitOn_eq_singleton hslash, if_neg hhead, List.foldl_cons, List.foldl_nil,
    if_neg (not_or.mpr ⟨hne, hdot⟩), if_neg hdots]

/-- A name without slashes and dots is plain. -/
theorem plainName_of_forall {name : Text} (hne : name ≠ [])
    (h : ∀ c ∈ name, c ≠ '/' ∧ c ≠ '.') :
  PlainName name
  := by
  refine ⟨hne, fun hc => (h _ hc).1 rfl, ?_, ?_⟩
  · rintro rfl
    exact (h '.' (by decide)).2 rfl
  · rintro rfl
    exact (h '.' (by decide)).2 rfl

theorem plainName_numeral (n : Text.Numeral) :
  PlainName n.text
  := by
  apply plainName_of_forall n.text_ne_nil
  intro c hc
  have hdigit := n.isDigit hc
  constructor <;> (rintro rfl; contradiction)

theorem plainName_decimal (n : ℕ) :
  PlainName (Text.decimal n)
  := plainName_numeral (.ofNat n)

theorem plainName_intText (n : ℤ) :
  PlainName (intText n)
  := by
  cases n with
  | ofNat n => exact plainName_decimal n
  | negSucc n =>
      apply plainName_of_forall (List.cons_ne_nil _ _)
      intro c hc
      rcases List.mem_cons.mp hc with rfl | hc
      · decide
      · have hdigit := Text.isDigit_of_mem_decimal hc
        constructor <;> (rintro rfl; contradiction)

end App
