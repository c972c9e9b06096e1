import MblCore.Lib.Text
import MblCore.Swupdate.ArmHandlerCommon

/-!
# The choice of the target partition

A partition is named by the path of its device, the letter `p` and its number.
`find_target_partition` takes the part of the mounted path in front of its first `p` for the path
of the device, and tells the banks apart by the ends of the path.  This gives the other bank
when there is no `p` in the path of the device and the number of the mounted bank does not end
in that of a bank it is not.
-/

namespace Swupdate

open Text

/-- The path of the partition `n` of the device `base`. -/
def partitionPath (base n : Text) : Text :=
  base ++ "p".toList ++ n

/-- The part of a path in front of its first `p`. -/
def stem (base : Text) : Text :=
  base.takeWhile (· != 'p')

/-- The number that takes the place of `n` by the ends of the path. -/
def chosenNumber (b1 b2 n : Text) : Option Text :=
  if b1 <:+ n then some b2 else if b2 <:+ n then some b1 else none

/-- The number of the bank other than `n`. -/
def otherNumber (b1 b2 n : Text) : Option Text :=
  if n = b1 then some b2 else if n = b2 then some b1 else none

/-- `find_target_partition` finds the partition of the other bank, if its path fits into the
destination with a terminating zero, and nothing else. -/
def SelectsOther (base b1 b2 n : Text) (dst_size : Nat) : Prop :=
  ∀ dst, findTargetPartition (partitionPath base n) b1 b2 dst_size = some dst ↔
    dst.length + 1 ≤ dst_size ∧
      ((n = b1 ∧ dst = partitionPath base b2) ∨ (n = b2 ∧ dst = partitionPath base b1))

/-- No number is chosen by the ends of the path; or there is no `p` in the path of the device, and
the number chosen is the other one; or neither the path that is put together nor the right one
fits. -/
def PicksOther (base b1 b2 n : Text) (dst_size : Nat) : Prop :=
  ∀ b ∈ chosenNumber b1 b2 n,
    ('p' ∉ base ∧ otherNumber b1 b2 n = some b ∧ (partitionPath base b).length ≤ INT_MAX) ∨
      (snprintf dst_size (partitionPath (stem base) b) = none ∧
        ∀ b' ∈ otherNumber b1 b2 n, dst_size ≤ (partitionPath base b').length)

/-! ### Paths of partitions -/

variable {base b1 b2 b n : Text} {dst_size : Nat}

theorem not_mem_of_isNumeral (hb : b.isNumeral = true) :
  'p' ∉ b
  := by
  intro hp
  simp only [isNumeral, Bool.and_eq_true, List.all_eq_true] at hb
  have hdigit := hb.2 'p' hp
  contradiction

theorem ne_nil_of_isNumeral (hb : b.isNumeral = true) :
  b ≠ []
  := by
  rintro rfl
  contradiction

theorem stem_eq_self (hbase : 'p' ∉ base) :
  stem base = base
  := by
  apply List.takeWhile_eq_self_iff.mpr
  intro c hc
  simp only [bne_iff_ne, ne_eq]
  rintro rfl
  contradiction

theorem not_mem_stem (base : Text) :
  'p' ∉ stem base
  := by
  intro hp
  have hne := List.mem_takeWhile_imp hp
  simp at hne

/-- What is in front of the first `p` of a partition is in front of the first `p` of the device. -/
theorem takeWhile_partitionPath (base n : Text) :
  (partitionPath base n).takeWhile (· != 'p') = stem base
  := by
  induction base with
  | nil => simp [partitionPath, stem]
  | cons c base ih =>
      have hstep : partitionPath (c :: base) n = c :: partitionPath base n := rfl
      rw [hstep, stem, List.takeWhile_cons, List.takeWhile_cons, ih, stem]

theorem strtok_partitionPath (hbase : base.head? = some '/') :
  strtok (partitionPath base n) 'p' = some (stem base)
  := by
  cases base with
  | nil => contradiction
  | cons c base =>
      obtain rfl : c = '/' := by simpa using hbase
      have hdrop : (partitionPath ('/' :: base) n).dropWhile (· == 'p')
          = '/' :: partitionPath base n := rfl
      rw [strtok, hdrop]
      exact congrArg some (takeWhile_partitionPath ('/' :: base) n)

/-- A numeral is at the end of the path of a partition when it is at the end of its number. -/
theorem suffix_partitionPath (hb : b.isNumeral = true) :
  b <:+ partitionPath base n ↔ b <:+ n
  := by
  have hpath : partitionPath base n = base ++ 'p' :: n := by
    simp [partitionPath]
  rw [hpath]
  constructor
  · intro h
    rcases List.suffix_or_suffix_of_suffix h (List.suffix_append base ('p' :: n)) with hin | hout
    · rcases List.suffix_cons_iff.mp hin with rfl | hin
      · exact absurd List.mem_cons_self (not_mem_of_isNumeral hb)
      · exact hin
    · exact absurd (hout.subset List.mem_cons_self) (not_mem_of_isNumeral hb)
  · intro h
    exact h.trans ((List.suffix_cons 'p' n).trans (List.suffix_append base _))

/-- Different devices or numbers give different partitions. -/
theorem partitionPath_inj {base' b' : Text} (hb : 'p' ∉ b) (hb' : 'p' ∉ b')
    (h : partitionPath base b = partitionPath base' b') :
  base = base' ∧ b = b'
  := by
  have hlast : b = b' := by
    have htail (base b : Text) (hb : 'p' ∉ b) :
        (partitionPath base b).reverse.takeWhile (· != 'p') = b.reverse := by
      rw [partitionPath, List.reverse_append, List.reverse_append, List.takeWhile_append_of_pos]
      · simp
      · intro c hc
        simp only [bne_iff_ne, ne_eq]
        rintro rfl
        exact hb (List.mem_reverse.mp hc)
    have hrev := congrArg (fun t => t.reverse.takeWhile (· != 'p')) h
    rw [htail base b hb, htail base' b' hb'] at hrev
    exact List.reverse_inj.mp hrev
  subst hlast
  constructor
  · rw [partitionPath, partitionPath] at h
    exact List.append_cancel_right (List.append_cancel_right h)
  · rfl

/-! ### What is chosen -/

theorem snprintf_eq_some_iff {s t : Text} :
  snprintf dst_size s = some t ↔ s = t ∧ t.length ≤ INT_MAX ∧ t.length < dst_size
  := by
  unfold snprintf
  constructor
  · split
    · simp
    · intro h
      obtain rfl := Option.some.inj h
      exact ⟨rfl, by omega, by omega⟩
  · rintro ⟨rfl, hmax, hsize⟩
    rw [if_neg (by omega)]

/-- The path that is put together. -/
theorem findTargetPartition_eq {token : Text}
    (htoken : strtok (partitionPath base n) 'p' = some token) (hb1 : b1.isNumeral = true)
    (hb2 : b2.isNumeral = true) :
  findTargetPartition (partitionPath base n) b1 b2 dst_size
    = (chosenNumber b1 b2 n).bind fun b => snprintf dst_size (partitionPath token b)
  := by
  simp only [findTargetPartition, htoken, strEndswith_eq_true,
    suffix_partitionPath hb1, suffix_partitionPath hb2, chosenNumber]
  split
  · rfl
  · split <;> rfl

/-- The right answer. -/
theorem mem_otherNumber (hne : b1 ≠ b2) :
  b ∈ otherNumber b1 b2 n ↔ (n = b1 ∧ b = b2) ∨ (n = b2 ∧ b = b1)
  := by
  unfold otherNumber
  split
  · next h =>
      subst h
      simp [hne, eq_comm]
  · next h =>
      split
      · next h' =>
          subst h'
          simp [h, eq_comm]
      · next h' => simp [h, h']

/-- The number of a mounted bank is at its own end. -/
theorem chosenNumber_isSome {b' : Text} (hother : b' ∈ otherNumber b1 b2 n) :
  ∃ b, chosenNumber b1 b2 n = some b
  := by
  unfold otherNumber at hother
  unfold chosenNumber
  by_cases h1 : b1 <:+ n
  · exact ⟨b2, if_pos h1⟩
  · rw [if_neg h1]
    split at hother
    · next h => exact absurd (h ▸ List.suffix_refl b1) h1
    · split at hother
      · next h => exact ⟨b1, if_pos (h ▸ List.suffix_refl b2)⟩
      · simp at hother

/-- The answers asked for, by the number of the other bank. -/
theorem selectsOther_def (hne : b1 ≠ b2) :
  SelectsOther base b1 b2 n dst_size ↔
    ∀ dst, findTargetPartition (partitionPath base n) b1 b2 dst_size = some dst ↔
      dst.length < dst_size ∧ ∃ b ∈ otherNumber b1 b2 n, dst = partitionPath base b
  := by
  have hright (dst : Text) : (∃ b ∈ otherNumber b1 b2 n, dst = partitionPath base b) ↔
      (n = b1 ∧ dst = partitionPath base b2) ∨ (n = b2 ∧ dst = partitionPath base b1) := by
    simp only [mem_otherNumber hne]
    constructor
    · rintro ⟨b, ⟨hn, rfl⟩ | ⟨hn, rfl⟩, hdst⟩
      · exact Or.inl ⟨hn, hdst⟩
      · exact Or.inr ⟨hn, hdst⟩
    · rintro (⟨hn, hdst⟩ | ⟨hn, hdst⟩)
      · exact ⟨b2, Or.inl ⟨hn, rfl⟩, hdst⟩
      · exact ⟨b1, Or.inr ⟨hn, rfl⟩, hdst⟩
  unfold SelectsOther
  simp only [hright, Nat.succ_le_iff]

/-- The number chosen is one of the two. -/
theorem isNumeral_of_mem (hb1 : b1.isNumeral = true) (hb2 : b2.isNumeral = true)
    (hb : b ∈ chosenNumber b1 b2 n ∨ b ∈ otherNumber b1 b2 n) :
  b.isNumeral = true
  := by
  unfold chosenNumber otherNumber at hb
  have heq : b2 = b ∨ b1 = b := by
    rcases hb with hb | hb
    all_goals
      split at hb
      · exact Or.inl (Option.some.inj hb)
      · split at hb
        · exact Or.inr (Option.some.inj hb)
        · simp at hb
  rcases heq with rfl | rfl
  · exact hb2
  · exact hb1

/-- `find_target_partition` selects the other bank and nothing else, just when the ends of the
path pick the other number and the path of the device has no `p` in it, or nothing is to be
selected, or there is no room for it. -/
theorem selectsOther_iff (hbase : base.head? = some '/') (hb1 : b1.isNumeral = true)
    (hb2 : b2.isNumeral = true) (hne : b1 ≠ b2) (n : Text) (dst_size : Nat) :
  SelectsOther base b1 b2 n dst_size ↔ PicksOther base b1 b2 n dst_size
  := by
  rw [selectsOther_def hne, findTargetPartition_eq (strtok_partitionPath hbase) hb1 hb2]
  constructor
  · intro h b hb
    rw [Option.mem_def] at hb
    rw [hb, Option.bind_some] at h
    cases hwritten : snprintf dst_size (partitionPath (stem base) b) with
    | none =>
        right
        use rfl
        intro b' hb'
        by_contra hfits
        have hfound := (h _).mpr ⟨Nat.not_le.mp hfits, b', hb', rfl⟩
        rw [hwritten] at hfound
        contradiction
    | some dst =>
        left
        obtain ⟨rfl, hmax, -⟩ := snprintf_eq_some_iff.mp hwritten
        obtain ⟨-, b', hb', heq⟩ := (h _).mp hwritten
        have hp := not_mem_of_isNumeral (isNumeral_of_mem hb1 hb2 (Or.inl hb))
        have hp' := not_mem_of_isNumeral (isNumeral_of_mem hb1 hb2 (Or.inr hb'))
        obtain ⟨hstem, rfl⟩ := partitionPath_inj hp hp' heq
        rw [hstem] at hmax
        exact ⟨hstem ▸ not_mem_stem base, hb', hmax⟩
  · intro h dst
    cases hchosen : chosenNumber b1 b2 n with
    | none =>
        have hnone (b' : Text) : b' ∉ otherNumber b1 b2 n := by
          intro hb'
          obtain ⟨b, hb⟩ := chosenNumber_isSome hb'
          rw [hchosen] at hb
          contradiction
        simp [hnone]
    | some b =>
        rw [Option.bind_some]
        rcases h b hchosen with ⟨hp, hother, hmax⟩ | ⟨hnone, hroom⟩
        · rw [stem_eq_self hp, snprintf_eq_some_iff, hother]
          constructor
          · rintro ⟨rfl, -, hsize⟩
            exact ⟨hsize, b, rfl, rfl⟩
          · rintro ⟨hsize, b', hb', rfl⟩
            obtain rfl := Option.some.inj hb'
            exact ⟨rfl, hmax, hsize⟩
        · rw [hnone]
          constructor
          · simp
          · rintro ⟨hsize, b', hb', rfl⟩
            exact absurd hsize (Nat.not_lt.mpr (hroom b' hb'))

instance : Decidable (PicksOther base b1 b2 n dst_size) :=
  inferInstanceAs (Decidable (∀ b ∈ chosenNumber b1 b2 n, _))

/-- The banks 3 and 5 of an MMC device. -/
theorem selectsOther_mmc :
  SelectsOther "/dev/mmcblk0".toList "3".toList "5".toList "3".toList MAX_DEVICE_FILE_PATH
  := by
  apply (selectsOther_iff _ _ _ _ _ _).mpr
  all_goals decide

/-- The banks 3 and 13: the number of the second ends in that of the first, and the mounted
partition itself is selected. -/
theorem not_selectsOther_suffix :
  findTargetPartition (partitionPath "/dev/mmcblk0".toList "13".toList) "3".toList "13".toList
      MAX_DEVICE_FILE_PATH = some (partitionPath "/dev/mmcblk0".toList "13".toList)
    ∧ ¬ SelectsOther "/dev/mmcblk0".toList "3".toList "13".toList "13".toList
        MAX_DEVICE_FILE_PATH
  := by
  have hfound : findTargetPartition (partitionPath "/dev/mmcblk0".toList "13".toList) "3".toList
      "13".toList MAX_DEVICE_FILE_PATH
      = some (partitionPath "/dev/mmcblk0".toList "13".toList) := by decide
  use hfound
  intro h
  have hright := ((h _).mp hfound).2
  revert hright
  decide

end Swupdate
