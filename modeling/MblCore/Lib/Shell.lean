import MblCore.Lib.Text

/-!
# Command lines of the POSIX shell

What a shell reads in a command line by the rules for blanks, quotes and operators.  A command
line that consists of words only is read as the list of these words, without their quotes.
There is no such list when an operator stands in the line, when a character that has to be quoted
to represent itself begins something else, such as an expansion, when a quote is not closed, or
when a second command follows in a further line.
-/

namespace Shell

/-- The characters that separate words. -/
def isBlank (c : Char) : Bool :=
  c == ' ' || c == '\t'

/-- The characters that begin an operator or an expansion. -/
def isOperator (c : Char) : Bool :=
  "|&;<>()$\x60".toList.contains c

/-- The characters that quote others. -/
def isQuote (c : Char) : Bool :=
  c == '\\' || c == '\'' || c == '"'

/-- The characters that represent themselves without being quoted. -/
def isPlain (c : Char) : Bool :=
  !(isBlank c || c == '\n' || isQuote c || isOperator c)

/-- The characters that make a word a pattern for the names of files. -/
def isPattern (c : Char) : Bool :=
  c == '*' || c == '?' || c == '['

/-- Where in a command line a shell is.  `started` tells whether there were words before. -/
inductive Mode
  /-- Outside of quotes, in a word or between two words. -/
  | unquoted (started : Bool) (word : Option Text)
  /-- After a backslash outside of quotes. -/
  | escaped (started : Bool) (word : Option Text)
  | single (word : Text)
  | double (word : Text)
  /-- After a backslash in double quotes. -/
  | doubleEscaped (word : Text)
  | comment (started : Bool)
  /-- After the end of the line the command stands in. -/
  | ended
deriving DecidableEq

/-- A word with one more character. -/
def addTo (word : Option Text) (c : Char) : Option Text :=
  some (word.getD [] ++ [c])

/-- After the end of a line. -/
def afterLine (started : Bool) : Mode :=
  if started then .ended else .unquoted false none

/-- One character of a command line: the word that ends before it, if one does, and where the
shell is after it. -/
def step : Mode → Char → Option (Option Text × Mode)
  | .unquoted started word, c =>
      if isBlank c then some (word, .unquoted (started || word.isSome) none)
      else if c = '\n' then some (word, afterLine (started || word.isSome))
      else if c = '\\' then some (none, .escaped started word)
      else if c = '\'' then some (none, .single (word.getD []))
      else if c = '"' then some (none, .double (word.getD []))
      else if isOperator c then none
      else if c = '#' ∧ word = none then some (none, .comment started)
      else some (none, .unquoted started (addTo word c))
  | .escaped started word, c =>
      -- a backslash at the end of a line joins it with the next one
      if c = '\n' then some (none, .unquoted started word)
      else some (none, .unquoted started (addTo word c))
  | .single word, c =>
      if c = '\'' then some (none, .unquoted true (some word)) else some (none, .single (word ++ [c]))
  | .double word, c =>
      if c = '"' then some (none, .unquoted true (some word))
      else if c = '\\' then some (none, .doubleEscaped word)
      else if c = '$' ∨ c = '\x60' then none
      else some (none, .double (word ++ [c]))
  | .doubleEscaped word, c =>
      if c = '\n' then some (none, .double word)
      else if c = '$' ∨ c = '\x60' ∨ c = '"' ∨ c = '\\' then some (none, .double (word ++ [c]))
      else some (none, .double (word ++ ['\\', c]))
  | .comment started, c =>
      if c = '\n' then some (none, afterLine started) else some (none, .comment started)
  | .ended, c =>
      if isBlank c ∨ c = '\n' then some (none, .ended)
      else if c = '#' then some (none, .comment true)
      else none

/-- The end of a command line: the word that ends there, if one does.  A line does not end in
quotes. -/
def finish : Mode → Option (Option Text)
  | .unquoted _ word => some word
  | .comment _ | .ended => some none
  | .escaped _ _ | .single _ | .double _ | .doubleEscaped _ => none

/-- The words in the rest of a command line. -/
def read : Mode → Text → Option (List Text)
  | m, [] => (finish m).map Option.toList
  | m, c :: rest =>
      match step m c with
      | some (ended, m') => (read m' rest).map (ended.toList ++ ·)
      | none => none

/-- The words of a command line. -/
def words (line : Text) : Option (List Text) :=
  read (.unquoted false none) line

example : words "sh -c 'a b' \"c\"d \\e # f".toList
  = some ["sh".toList, "-c".toList, "a b".toList, "cd".toList, "e".toList] := by decide

example : words "a; b".toList = none := by decide

/-! ### Characters that represent themselves -/

variable {c : Char} {started : Bool} {word : Option Text} {rest line : Text}

theorem isPlain_iff :
  isPlain c = true
    ↔ isBlank c = false ∧ c ≠ '\n' ∧ isQuote c = false ∧ isOperator c = false
  := by
  simp only [isPlain, Bool.not_eq_true', Bool.or_eq_false_iff, beq_eq_false_iff_ne, and_assoc]

/-- Outside of quotes a plain character goes on with a word.  It begins one if it does not begin a
comment. -/
theorem read_plain (h : isPlain c = true) (hcomment : c ≠ '#' ∨ word ≠ none) :
  read (.unquoted started word) (c :: rest) = read (.unquoted started (addTo word c)) rest
  := by
  obtain ⟨hblank, hnewline, hquote, hoperator⟩ := isPlain_iff.mp h
  simp only [isQuote, Bool.or_eq_false_iff, beq_eq_false_iff_ne] at hquote
  have hstep : step (.unquoted started word) c = some (none, .unquoted started (addTo word c)) := by
    rw [step, if_neg (by simp [hblank]), if_neg hnewline, if_neg hquote.1.1, if_neg hquote.1.2,
      if_neg hquote.2, if_neg (by simp [hoperator]), if_neg]
    rintro ⟨hc, hword⟩
    exact hcomment.elim (absurd hc) (absurd hword)
  rw [read, hstep]
  exact Option.map_id'

/-- Plain characters in a word are added to it. -/
theorem read_word {t w : Text} (h : ∀ c ∈ t, isPlain c = true) :
  read (.unquoted started (some w)) (t ++ rest) = read (.unquoted started (some (w ++ t))) rest
  := by
  induction t generalizing w with
  | nil => simp
  | cons c t ih =>
      rw [List.cons_append, read_plain (h c List.mem_cons_self) (Or.inr (by simp))]
      rw [addTo, Option.getD_some, ih fun d hd => h d (List.mem_cons_of_mem c hd)]
      simp

/-- A word of plain characters, up to the end of the line or of the word. -/
theorem read_plainWord {t : Text} (h : ∀ c ∈ t, isPlain c = true) (hword : t ≠ [])
    (hcomment : t.head? ≠ some '#') :
  read (.unquoted started none) (t ++ rest) = read (.unquoted started (some t)) rest
  := by
  cases t with
  | nil => exact absurd rfl hword
  | cons c t =>
      have hc : c ≠ '#' := fun heq => hcomment (congrArg some heq)
      rw [List.cons_append, read_plain (h c List.mem_cons_self) (Or.inl hc)]
      rw [addTo, Option.getD_none, read_word fun d hd => h d (List.mem_cons_of_mem c hd)]
      rfl

/-! ### How long the words are -/

/-- The characters of the word a shell is in. -/
def Mode.size : Mode → Nat
  | .unquoted _ word | .escaped _ word => (word.getD []).length
  | .single word | .double word => word.length
  | .doubleEscaped word => word.length + 1
  | .comment _ | .ended => 0

@[simp]
theorem size_unquoted :
  (Mode.unquoted started word).size = (word.getD []).length
  := rfl

@[simp]
theorem size_escaped :
  (Mode.escaped started word).size = (word.getD []).length
  := rfl

@[simp]
theorem size_single (w : Text) :
  (Mode.single w).size = w.length
  := rfl

@[simp]
theorem size_double (w : Text) :
  (Mode.double w).size = w.length
  := rfl

@[simp]
theorem size_doubleEscaped (w : Text) :
  (Mode.doubleEscaped w).size = w.length + 1
  := rfl

@[simp]
theorem size_comment :
  (Mode.comment started).size = 0
  := rfl

@[simp]
theorem size_ended :
  Mode.ended.size = 0
  := rfl

/-- The number of characters of a list of words. -/
def total : List Text → Nat
  | [] => 0
  | w :: ws => w.length + total ws

@[simp]
theorem size_afterLine :
  (afterLine started).size = 0
  := by cases started <;> rfl

@[simp]
theorem length_addTo :
  ((addTo word c).getD []).length = (word.getD []).length + 1
  := by simp [addTo]

theorem total_toList_append (ended : Option Text) (ws : List Text) :
  total (ended.toList ++ ws) = (ended.getD []).length + total ws
  := by cases ended <;> simp [total]

/-- One character makes the words longer by one character at most. -/
theorem size_step {m m' : Mode} {ended : Option Text} (h : step m c = some (ended, m')) :
  (ended.getD []).length + m'.size ≤ m.size + 1
  := by
  cases m with
  | unquoted started word =>
      simp only [step] at h
      split_ifs at h <;> cases h <;> simp
  | escaped started word =>
      simp only [step] at h
      split_ifs at h <;> cases h <;> simp
  | single word =>
      simp only [step] at h
      split_ifs at h <;> cases h <;> simp
  | double word =>
      simp only [step] at h
      split_ifs at h <;> cases h <;> simp
  | doubleEscaped word =>
      simp only [step] at h
      split_ifs at h <;> cases h <;> simp
      omega
  | comment started =>
      simp only [step] at h
      split_ifs at h <;> cases h <;> simp
  | ended =>
      simp only [step] at h
      split_ifs at h <;> cases h <;> simp

/-- The word that ends with a line is the one the shell is in. -/
theorem size_finish {m : Mode} {ended : Option Text} (h : finish m = some ended) :
  (ended.getD []).length ≤ m.size
  := by
  cases m <;> cases h <;> simp

/-- The words that are read have no more characters than the line. -/
theorem total_le (m : Mode) {ws : List Text} (h : read m line = some ws) :
  total ws ≤ m.size + line.length
  := by
  induction line generalizing m ws with
  | nil =>
      rw [read] at h
      obtain ⟨ended, hended, rfl⟩ := Option.map_eq_some_iff.mp h
      have htotal := total_toList_append ended []
      rw [List.append_nil] at htotal
      rw [htotal]
      exact Nat.add_le_add_right (size_finish hended) 0
  | cons c rest ih =>
      rw [read] at h
      split at h
      · rename_i ended m' hstep
        obtain ⟨ws', hws', rfl⟩ := Option.map_eq_some_iff.mp h
        have hrest := ih m' hws'
        have hsize := size_step hstep
        rw [total_toList_append, List.length_cons]
        omega
      · contradiction

/-! ### A line of two words -/

/-- A character that does not represent itself is lost, if a line is read at all. -/
theorem size_step_of_not_plain {m' : Mode} {w : Text} {ended : Option Text}
    (hc : isPlain c = false) (h : step (.unquoted started (some w)) c = some (ended, m')) :
  (ended.getD []).length + m'.size ≤ w.length
  := by
  rw [← Bool.not_eq_true, isPlain_iff] at hc
  simp only [step] at h
  split_ifs at h <;> cases h <;> simp
  simp_all [isQuote]

/-- The rest of a word is read as it stands just when all its characters represent themselves. -/
theorem read_eq_append_iff {w t : Text} :
  read (.unquoted started (some w)) t = some [w ++ t] ↔ ∀ c ∈ t, isPlain c = true
  := by
  induction t generalizing w with
  | nil => simp [read, finish]
  | cons c t ih =>
      rw [List.forall_mem_cons]
      by_cases hc : isPlain c = true
      · have happend : w ++ c :: t = w ++ [c] ++ t := by simp
        rw [read_plain hc (Or.inr (by simp)), addTo, Option.getD_some, happend, ih]
        simp [hc]
      · simp only [hc, Bool.false_eq_true, false_and, iff_false]
        intro h
        -- the character is lost, and the words are too short
        have hshort : total [w ++ c :: t] ≤ w.length + t.length := by
          rw [read] at h
          split at h
          · rename_i ended m' hstep
            obtain ⟨ws, hws, heq⟩ := Option.map_eq_some_iff.mp h
            have hrest := total_le m' hws
            have hsize := size_step_of_not_plain (Bool.not_eq_true _ ▸ hc) hstep
            rw [← heq, total_toList_append]
            omega
          · contradiction
        have hlong : total [w ++ c :: t] = w.length + (t.length + 1) := by simp [total]
        omega

/-- A command line of two words, the first of which represents itself, is read as these words just
when the second one represents itself too. -/
theorem words_pair_iff {first : Text} {c : Char} {t : Text} (hfirst : first ≠ [])
    (hplain : ∀ c ∈ first, isPlain c = true) (hcomment : first.head? ≠ some '#')
    (hc : isPlain c = true) (hc' : c ≠ '#') :
  words (first ++ ' ' :: c :: t) = some [first, c :: t] ↔ ∀ c ∈ t, isPlain c = true
  := by
  have hread : words (first ++ ' ' :: c :: t)
      = (read (.unquoted true (some [c])) t).map ([first] ++ ·) := by
    rw [words, read_plainWord hplain hfirst hcomment, read]
    have hblank : step (.unquoted false (some first)) ' '
        = some (some first, .unquoted true none) := rfl
    rw [hblank]
    dsimp only
    rw [read_plain hc (Or.inl hc')]
    rfl
  rw [hread, ← read_eq_append_iff (w := [c])]
  simp only [List.singleton_append, Option.map_eq_some_iff, List.cons.injEq, true_and]
  constructor
  · rintro ⟨ws, hws, rfl⟩
    exact hws
  · intro h
    exact ⟨_, h, rfl⟩

end Shell
