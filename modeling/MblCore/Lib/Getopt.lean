import MblCore.Lib.Text

/-!
# Command lines

`scan` lists what the calls of `getopt_long` return for the words of a command line, one after the
other.  Words that are no options are passed over, or end the options when the program asks for the
order of POSIX.  `Reads` tells which lines consist of options that have their arguments, and of words
that are passed over.
-/

namespace Getopt

/-! ### Options -/

/-- The options of a program. -/
structure Options where
  /-- Whether a letter takes an argument, if it is an option. -/
  short : Char → Option Bool
  /-- Whether a long option takes an argument, and the letter it stands for. -/
  long : Text → Option (Bool × Char)

/-- What a call of `getopt_long` comes upon. -/
inductive Item
  | option (val : Char) (optarg : Option Text)
  /-- An option that is not known, or whose argument is missing or too many. -/
  | unrecognized
  /-- A name that is not that of a long option, and that is looked for in a table without an end. -/
  | undefined
deriving DecidableEq

/-- What a word is. -/
inductive Word
  | operand
  | terminator
  /-- Options, the last one of which may take the next word for its argument. -/
  | options (items : List Item) (awaiting : Option Char)
deriving DecidableEq

/-- A text before and after the first `=`. -/
def splitEq (text : Text) : Text × Option Text :=
  match text.dropWhile (· ≠ '=') with
  | [] => (text, none)
  | _ :: value => (text.takeWhile (· ≠ '='), some value)

variable (o : Options) (posix : Bool)

/-- The letters after a `-`. -/
def letters : List Char → List Item × Option Char
  | [] => ([], none)
  | c :: cs =>
      match o.short c with
      | none => (.unrecognized :: (letters cs).1, (letters cs).2)
      | some false => (.option c none :: (letters cs).1, (letters cs).2)
      | some true => if cs = [] then ([], some c) else ([.option c (some cs)], none)

/-- The word after a `--`. -/
def longOption (text : Text) : Word :=
  match o.long (splitEq text).1, (splitEq text).2 with
  | none, _ => .options [.undefined] none
  | some (true, val), some value => .options [.option val (some value)] none
  | some (true, val), none => .options [] (some val)
  | some (false, _), some _ => .options [.unrecognized] none
  | some (false, val), none => .options [.option val none] none

def classify : Text → Word
  | ['-', '-'] => .terminator
  | '-' :: '-' :: text => longOption o text
  | '-' :: c :: cs => .options (letters o (c :: cs)).1 (letters o (c :: cs)).2
  | _ => .operand

/-- What is found in the words, where an option may wait for its argument. -/
def scan : Option Char → List Text → List Item
  | none, [] => []
  | some _, [] => [.unrecognized]
  | some val, word :: words => .option val (some word) :: scan none words
  | none, word :: words =>
      match classify o word with
      | .operand => if posix then [] else scan none words
      | .terminator => []
      | .options items awaiting => items ++ scan awaiting words

/-! ### Lines in which each option has its argument -/

/-- A word that is no option. -/
def IsOperand (word : Text) : Prop :=
  word.head? ≠ some '-' ∨ word = ['-']

/-- The options of a line, each with its argument. -/
inductive Reads : List Text → List (Char × Text) → Prop
  | nil : Reads [] []
  | operand {word : Text} {words : List Text} {opts : List (Char × Text)} (hword : IsOperand word)
      (hposix : posix = false) (h : Reads words opts) : Reads (word :: words) opts
  | firstOperand {word : Text} {words : List Text} (hword : IsOperand word)
      (hposix : posix = true) : Reads (word :: words) []
  | terminator {words : List Text} : Reads (['-', '-'] :: words) []
  | long {name arg : Text} {val : Char} {words : List Text} {opts : List (Char × Text)}
      (hname : o.long name = some (true, val)) (hne : name ≠ []) (heq : '=' ∉ name)
      (h : Reads words opts) : Reads (('-' :: '-' :: name) :: arg :: words) ((val, arg) :: opts)
  | longEq {name arg : Text} {val : Char} {words : List Text} {opts : List (Char × Text)}
      (hname : o.long name = some (true, val)) (heq : '=' ∉ name) (h : Reads words opts) :
      Reads (('-' :: '-' :: (name ++ '=' :: arg)) :: words) ((val, arg) :: opts)
  | short {c : Char} {arg : Text} {words : List Text} {opts : List (Char × Text)}
      (hc : o.short c = some true) (hne : c ≠ '-') (h : Reads words opts) :
      Reads (['-', c] :: arg :: words) ((c, arg) :: opts)
  | shortJoined {c : Char} {arg : Text} {words : List Text} {opts : List (Char × Text)}
      (hc : o.short c = some true) (hne : c ≠ '-') (harg : arg ≠ []) (h : Reads words opts) :
      Reads (('-' :: c :: arg) :: words) ((c, arg) :: opts)

/-- The items of options that have their arguments. -/
def itemsOf (opts : List (Char × Text)) : List Item :=
  opts.map fun opt => .option opt.1 (some opt.2)

variable {o posix}

theorem itemsOf_cons (val : Char) (arg : Text) (opts : List (Char × Text)) :
  itemsOf ((val, arg) :: opts) = .option val (some arg) :: itemsOf opts
  := rfl

/-! ### Words -/

theorem splitEq_of_notMem {name : Text} (h : '=' ∉ name) :
  splitEq name = (name, none)
  := by
  have hdrop : name.dropWhile (· ≠ '=') = [] := by
    rw [List.dropWhile_eq_nil_iff]
    intro c hc
    simp only [ne_eq, decide_not, Bool.not_eq_true', decide_eq_false_iff_not]
    rintro rfl
    exact h hc
  rw [splitEq, hdrop]

theorem splitEq_append {name value : Text} (h : '=' ∉ name) :
  splitEq (name ++ '=' :: value) = (name, some value)
  := by
  have hall : ∀ c ∈ name, (c ≠ '=' : Bool) = true := by
    intro c hc
    simp only [ne_eq, decide_not, Bool.not_eq_true', decide_eq_false_iff_not]
    rintro rfl
    exact h hc
  have hdrop : (name ++ '=' :: value).dropWhile (· ≠ '=') = '=' :: value := by
    rw [List.dropWhile_append_of_pos hall]
    simp
  have htake : (name ++ '=' :: value).takeWhile (· ≠ '=') = name := by
    rw [List.takeWhile_append_of_pos hall]
    simp
  rw [splitEq, hdrop, htake]

/-- A text is its part before the first `=`, or that and what comes after. -/
theorem splitEq_cases (text : Text) :
  ('=' ∉ text ∧ splitEq text = (text, none)) ∨
    ∃ name value, '=' ∉ name ∧ text = name ++ '=' :: value ∧ splitEq text = (name, some value)
  := by
  by_cases h : '=' ∈ text
  · obtain ⟨name, value, htext, hname⟩ := List.eq_append_cons_of_mem h
    exact .inr ⟨name, value, hname, htext, htext ▸ splitEq_append hname⟩
  · exact .inl ⟨h, splitEq_of_notMem h⟩

theorem classify_of_isOperand {word : Text} (h : IsOperand word) :
  classify o word = .operand
  := by
  rcases h with hhead | rfl
  · match word with
    | [] => rfl
    | c :: cs =>
        have hne : c ≠ '-' := by simpa using hhead
        unfold classify
        split <;> simp_all
  · rfl

theorem classify_long {text : Text} (h : text ≠ []) :
  classify o ('-' :: '-' :: text) = longOption o text
  := by
  cases text with
  | nil => contradiction
  | cons c cs => rfl

theorem classify_short {c : Char} {cs : List Char} (h : c ≠ '-') :
  classify o ('-' :: c :: cs) = .options (letters o (c :: cs)).1 (letters o (c :: cs)).2
  := by
  unfold classify
  split <;> simp_all

/-- What a word can be. -/
theorem word_cases (word : Text) :
  IsOperand word ∨ word = ['-', '-'] ∨ (∃ text, text ≠ [] ∧ word = '-' :: '-' :: text) ∨
    ∃ c cs, c ≠ '-' ∧ word = '-' :: c :: cs
  := by
  match word with
  | [] => exact .inl (.inl (by simp))
  | [c] =>
      by_cases hc : c = '-'
      · exact .inl (.inr (by rw [hc]))
      · exact .inl (.inl (by simpa using hc))
  | c :: c' :: cs =>
      by_cases hc : c = '-'
      · subst hc
        by_cases hc' : c' = '-'
        · subst hc'
          cases cs with
          | nil => exact .inr (.inl rfl)
          | cons c cs => exact .inr (.inr (.inl ⟨c :: cs, by simp, rfl⟩))
        · exact .inr (.inr (.inr ⟨c', cs, hc', rfl⟩))
      · exact .inl (.inl (by simpa using hc))

/-! ### Lines -/

/-- The items of a line in which each option has its argument. -/
theorem Reads.scan {words : List Text} {opts : List (Char × Text)} (h : Reads o posix words opts) :
  scan o posix none words = itemsOf opts
  := by
  induction h with
  | nil => rfl
  | operand hword hposix _ ih =>
      rw [Getopt.scan, classify_of_isOperand hword]
      dsimp only
      rw [if_neg (by simp [hposix]), ih]
  | firstOperand hword hposix =>
      simp [Getopt.scan, classify_of_isOperand hword, hposix, itemsOf]
  | terminator => rfl
  | long hname hne heq _ ih =>
      simp [Getopt.scan, classify_long hne, longOption, splitEq_of_notMem heq, hname, ih, itemsOf]
  | longEq hname heq _ ih =>
      simp [Getopt.scan, classify_long, longOption, splitEq_append heq, hname, ih, itemsOf]
  | short hc hne _ ih => simp [Getopt.scan, classify_short hne, letters, hc, ih, itemsOf]
  | shortJoined hc hne harg _ ih =>
      simp [Getopt.scan, classify_short hne, letters, hc, harg, ih, itemsOf]

/-- Items that are those of options with their arguments begin with one of them, or are none. -/
theorem itemsOf_eq_cons {item : Item} {items : List Item} {opts : List (Char × Text)}
    (h : item :: items = itemsOf opts) :
  ∃ val arg opts', item = .option val (some arg) ∧ items = itemsOf opts' ∧ opts = (val, arg) :: opts'
  := by
  cases opts with
  | nil => contradiction
  | cons opt opts =>
      rw [itemsOf, List.map_cons, List.cons.injEq] at h
      exact ⟨opt.1, opt.2, opts, h.1, h.2, rfl⟩

/-- The line has options that have their arguments, after the one that waits for its argument. -/
def ReadsAwaiting (o : Options) (posix : Bool) :
    Option Char → List Text → List (Char × Text) → Prop
  | none, words, opts => Reads o posix words opts
  | some val, words, opts => ∃ arg words' opts', words = arg :: words' ∧
      opts = (val, arg) :: opts' ∧ Reads o posix words' opts'

theorem reads_long {text : Text} {words : List Text} {opts : List (Char × Text)} (hne : text ≠ [])
    (hscan : ∀ awaiting opts, scan o posix awaiting words = itemsOf opts →
      ReadsAwaiting o posix awaiting words opts)
    (h : scan o posix none (('-' :: '-' :: text) :: words) = itemsOf opts) :
  Reads o posix (('-' :: '-' :: text) :: words) opts
  := by
  rw [scan, classify_long hne, longOption] at h
  rcases splitEq_cases text with ⟨heq, hsplit⟩ | ⟨name, value, heq, rfl, hsplit⟩
  · rw [hsplit] at h
    cases hlong : o.long text with
    | none =>
        simp only [hlong, List.cons_append] at h
        obtain ⟨_, _, _, hitem, -, -⟩ := itemsOf_eq_cons h
        contradiction
    | some long =>
        obtain ⟨_ | _, val⟩ := long
        · simp only [hlong, List.cons_append] at h
          obtain ⟨_, _, _, hitem, -, -⟩ := itemsOf_eq_cons h
          simp at hitem
        · simp only [hlong, List.nil_append] at h
          obtain ⟨arg, words', opts', rfl, rfl, hrest⟩ := hscan _ _ h
          exact .long hlong hne heq hrest
  · rw [hsplit] at h
    cases hlong : o.long name with
    | none =>
        simp only [hlong, List.cons_append] at h
        obtain ⟨_, _, _, hitem, -, -⟩ := itemsOf_eq_cons h
        contradiction
    | some long =>
        obtain ⟨_ | _, val⟩ := long
        · simp only [hlong, List.cons_append] at h
          obtain ⟨_, _, _, hitem, -, -⟩ := itemsOf_eq_cons h
          contradiction
        · simp only [hlong, List.cons_append, List.nil_append] at h
          obtain ⟨val', arg, opts', hitem, hrest, rfl⟩ := itemsOf_eq_cons h
          rw [Item.option.injEq, Option.some.injEq] at hitem
          obtain ⟨rfl, rfl⟩ := hitem
          exact .longEq hlong heq (hscan _ _ hrest)

theorem reads_short {c : Char} {cs : List Char} {words : List Text} {opts : List (Char × Text)}
    (hne : c ≠ '-')
    (hscan : ∀ awaiting opts, scan o posix awaiting words = itemsOf opts →
      ReadsAwaiting o posix awaiting words opts)
    (h : scan o posix none (('-' :: c :: cs) :: words) = itemsOf opts) :
  Reads o posix (('-' :: c :: cs) :: words) opts
  := by
  rw [scan, classify_short hne, letters] at h
  cases hshort : o.short c with
  | none =>
      simp only [hshort, List.cons_append] at h
      obtain ⟨_, _, _, hitem, -, -⟩ := itemsOf_eq_cons h
      contradiction
  | some takes =>
      cases takes with
      | false =>
          simp only [hshort, List.cons_append] at h
          obtain ⟨_, _, _, hitem, -, -⟩ := itemsOf_eq_cons h
          simp at hitem
      | true =>
          simp only [hshort] at h
          by_cases hcs : cs = []
          · subst hcs
            obtain ⟨arg, words', opts', rfl, rfl, hrest⟩ := hscan _ _ h
            exact .short hshort hne hrest
          · simp only [hcs, if_false, List.cons_append, List.nil_append] at h
            obtain ⟨val, arg, opts', hitem, hrest, rfl⟩ := itemsOf_eq_cons h
            rw [Item.option.injEq, Option.some.injEq] at hitem
            obtain ⟨rfl, rfl⟩ := hitem
            exact .shortJoined hshort hne hcs (hscan _ _ hrest)

theorem readsAwaiting_of_scan {awaiting : Option Char} {words : List Text}
    {opts : List (Char × Text)} (h : scan o posix awaiting words = itemsOf opts) :
  ReadsAwaiting o posix awaiting words opts
  := by
  induction words generalizing awaiting opts with
  | nil =>
      cases awaiting with
      | none =>
          obtain rfl : opts = [] := List.map_eq_nil_iff.mp h.symm
          exact .nil
      | some val =>
          obtain ⟨_, _, _, hitem, -, -⟩ := itemsOf_eq_cons h
          contradiction
  | cons word words ih =>
      cases awaiting with
      | some val =>
          obtain ⟨val', arg, opts', hitem, hrest, rfl⟩ := itemsOf_eq_cons h
          rw [Item.option.injEq, Option.some.injEq] at hitem
          obtain ⟨rfl, rfl⟩ := hitem
          exact ⟨_, _, _, rfl, rfl, ih hrest⟩
      | none =>
          rcases word_cases word with hword | rfl | ⟨text, hne, rfl⟩ | ⟨c, cs, hne, rfl⟩
          · rw [scan, classify_of_isOperand hword] at h
            dsimp only at h
            split at h
            · obtain rfl : opts = [] := List.map_eq_nil_iff.mp h.symm
              exact .firstOperand hword ‹_›
            · exact .operand hword (by simpa using ‹¬ posix = true›) (ih h)
          · obtain rfl : opts = [] := List.map_eq_nil_iff.mp h.symm
            exact .terminator
          · exact reads_long hne (fun _ _ => ih) h
          · exact reads_short hne (fun _ _ => ih) h

/-- The words are read as options with their arguments exactly when they are such a line. -/
theorem scan_eq_itemsOf_iff {words : List Text} {opts : List (Char × Text)} :
  scan o posix none words = itemsOf opts ↔ Reads o posix words opts
  := ⟨readsAwaiting_of_scan, Reads.scan⟩

end Getopt
