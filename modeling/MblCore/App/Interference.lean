import MblCore.App.Terminate
import MblCore.App.Truthful
import MblCore.Lib.Interleave

/-!
# Terminating an application among others

What becomes of a call of `terminate_app` when commands fail only because of the state of the
container, and others may call `runc` in between.  Once the call has begun it relies on the others
to leave the container alone.
-/

namespace App.Timed

open Prog hiding pure throw bind

variable {id : Text} {who : Caller} {w : World}

/-! ### Commands that fail only because of the container -/

/-- A command fails and says one of the phrases. -/
def Says (phrases : List Text) (result : CmdResult) : Prop :=
  result.ok = false ∧ (result.stdout.text.any fun text => phrases.any (occursIn · text)) = true

instance (phrases : List Text) (result : CmdResult) : Decidable (Says phrases result) :=
  inferInstanceAs (Decidable (_ ∧ _))

/-- The state of the container is told. -/
def StateAnswer (id : Text) (result : CmdResult) : Option Container → Prop
  | none => Says [ContainerState.DOES_NOT_EXIST] result
  | some c => result.ok = true ∧ stateOf id result = .ok c.status.text

/-- A signal is sent to a process that has not ended. -/
def KillAnswer (result : CmdResult) : Option Container → Prop
  | none => Says [ContainerState.DOES_NOT_EXIST] result
  | some ⟨_, .stopped⟩ => Says [ContainerState.ALREADY_STOPPED, ContainerState.NOT_RUNNING] result
  | some _ => result.ok = true

/-- A container is deleted unless its process runs. -/
def DeleteAnswer (result : CmdResult) : Option Container → Prop
  | none => Says [ContainerState.DOES_NOT_EXIST] result
  | some ⟨_, .running⟩ => result.ok = false
  | some _ => result.ok = true

/-- A command succeeds or fails as the state of the container has it, and says so. -/
def AnsweredByState : TimedCall → Answer → World → Prop
  | .command (.runcState id), x, w =>
      StateAnswer id x.result ((w.device.settle id x.exited).containers id)
  | .command (.runcKill id _), x, w =>
      KillAnswer x.result ((w.device.settle id x.exited).containers id)
  | .command (.runcDelete id), x, w =>
      DeleteAnswer x.result ((w.device.settle id x.exited).containers id)
  | _, _, _ => True

instance decidableStateAnswer (id : Text) (result : CmdResult) :
    ∀ k, Decidable (StateAnswer id result k)
  | none => inferInstanceAs (Decidable (Says _ _))
  | some _ => inferInstanceAs (Decidable (_ ∧ stateOf _ _ = _))

instance decidableKillAnswer (result : CmdResult) : ∀ k, Decidable (KillAnswer result k)
  | none | some ⟨_, .stopped⟩ => inferInstanceAs (Decidable (Says _ _))
  | some ⟨_, .created⟩ | some ⟨_, .running⟩ => inferInstanceAs (Decidable (_ = _))

instance decidableDeleteAnswer (result : CmdResult) : ∀ k, Decidable (DeleteAnswer result k)
  | none => inferInstanceAs (Decidable (Says _ _))
  | some ⟨_, .stopped⟩ | some ⟨_, .created⟩ | some ⟨_, .running⟩ =>
      inferInstanceAs (Decidable (_ = _))

instance decidableAnsweredByState : ∀ (c : TimedCall) (x : Answer) (w : World),
    Decidable (AnsweredByState c x w)
  | .command (.runcState _), _, _ => inferInstanceAs (Decidable (StateAnswer _ _ _))
  | .command (.runcKill _ _), _, _ => inferInstanceAs (Decidable (KillAnswer _ _))
  | .command (.runcDelete _), _, _ => inferInstanceAs (Decidable (DeleteAnswer _ _))
  | .command (.extractall _ _), _, _ | .command (.opkgInfo _), _, _
  | .command (.opkgInstall _ _ _), _, _ | .command (.opkgRemove _ _), _, _
  | .command (.runcCreate _ _), _, _ | .command (.runcStart _), _, _ | .command (.isdir _), _, _
  | .command (.exists_ _), _, _ | .command (.walk _ _), _, _ | .command (.listdir _), _, _
  | .command (.rmtree _), _, _ | .command .endtimeReached, _, _ | .command (.log _), _, _
  | .monotonic, _, _ | .sleep _, _, _ => isTrue trivial

/-- The timeout of a SIGTERM that was sent has passed. -/
def Overdue (id : Text) (sigterm_timeout : Caller → ℤ) (w : World) : Prop :=
  ∃ e ∈ w.history, e.AcceptsSigterm id
    ∧ e.answeredAt + sigterm_timeout e.who * SECOND ≤ w.now

instance (id : Text) (sigterm_timeout : Caller → ℤ) (w : World) :
    Decidable (Overdue id sigterm_timeout w) :=
  inferInstanceAs (Decidable (∃ e ∈ w.history, _ ∧ _))

/-- Commands fail only because of the state of the container, `runc` says the truth, and the
container stops within the timeout of SIGTERM. -/
def Admitted (id : Text) (sigterm_timeout : Caller → ℤ) (c : TimedCall) (x : Answer) (w : World) :
    Prop :=
  AnsweredByState c x w ∧ RuncSaysTheTruth c x w
    ∧ (Overdue id sigterm_timeout w → x.exited = true)

instance (id : Text) (sigterm_timeout : Caller → ℤ) (c : TimedCall) (x : Answer) (w : World) :
    Decidable (Admitted id sigterm_timeout c x w) :=
  inferInstanceAs (Decidable (_ ∧ _ ∧ (_ → _)))

/-- No message names the application in a way that tells of a process that has ended. -/
def ClearName (id : Text) : Prop :=
  ∀ phrase ∈ [ContainerState.ALREADY_STOPPED, ContainerState.NOT_RUNNING],
    occursIn phrase id = false

instance (id : Text) : Decidable (ClearName id) :=
  inferInstanceAs (Decidable (∀ phrase ∈ _, _))

/-- A signal finds a container, if the name of the application is not clear. -/
def FindsContainer : TimedCall → Answer → World → Prop
  | .command (.runcKill id _), _, w => w.device.containers id = none → ClearName id
  | _, _, _ => True

instance decidableFindsContainer : ∀ (c : TimedCall) (x : Answer) (w : World),
    Decidable (FindsContainer c x w)
  | .command (.runcKill id _), _, w =>
      inferInstanceAs (Decidable (w.device.containers id = none → ClearName id))
  | .command (.runcState _), _, _ | .command (.runcDelete _), _, _
  | .command (.extractall _ _), _, _ | .command (.opkgInfo _), _, _
  | .command (.opkgInstall _ _ _), _, _ | .command (.opkgRemove _ _), _, _
  | .command (.runcCreate _ _), _, _ | .command (.runcStart _), _, _ | .command (.isdir _), _, _
  | .command (.exists_ _), _, _ | .command (.walk _ _), _, _ | .command (.listdir _), _, _
  | .command (.rmtree _), _, _ | .command .endtimeReached, _, _ | .command (.log _), _, _
  | .monotonic, _, _ | .sleep _, _, _ => isTrue trivial

/-! ### What a caller relies on -/

/-- The caller has issued a call. -/
def Started (who : Caller) (history : List Event) : Prop :=
  ∃ e ∈ history, e.who = who

instance (who : Caller) (history : List Event) : Decidable (Started who history) :=
  inferInstanceAs (Decidable (∃ e ∈ history, e.who = who))

/-- A container stays, and stays stopped. -/
structure Aged (k k' : Option Container) : Prop where
  absent : k = none ↔ k' = none
  stopped : k.map Container.status = some .stopped → k'.map Container.status = some .stopped

theorem Aged.refl (k : Option Container) :
  Aged k k
  := ⟨Iff.rfl, fun h => h⟩

theorem Aged.trans {k k' k'' : Option Container} (h : Aged k k') (h' : Aged k' k'') :
  Aged k k''
  := ⟨h.absent.trans h'.absent, fun hk => h'.stopped (h.stopped hk)⟩

/-- What a caller relies on: once it has begun the container is left alone, and none comes to be
ever. -/
structure Rely (id : Text) (who : Caller) (w w' : World) : Prop where
  follows : Follows w w'
  absent : w.device.containers id = none → w'.device.containers id = none
  aged : Started who w.history → Aged (w.device.containers id) (w'.device.containers id)

theorem Started.mono {w' : World} (h : Started who w.history) (hfollows : Follows w w') :
  Started who w'.history
  := by
  obtain ⟨e, he, hwho⟩ := h
  exact ⟨e, hfollows.history.subset he, hwho⟩

instance : Std.Refl (Rely id who) where
  refl w := ⟨Follows.refl w, fun h => h, fun _ => Aged.refl _⟩

instance : IsTrans World (Rely id who) where
  trans _ _ _ h h' :=
    { follows := h.follows.trans h'.follows
      absent := fun hw => h'.absent (h.absent hw)
      aged := fun hw => (h.aged hw).trans (h'.aged (hw.mono h.follows)) }

/-- The caller has begun, and there is a container. -/
def Present (id : Text) (who : Caller) (w : World) : Prop :=
  Started who w.history ∧ w.device.containers id ≠ none

/-- The caller has begun, and the process in the container has ended. -/
def Stopped (id : Text) (who : Caller) (w : World) : Prop :=
  Started who w.history ∧ (w.device.containers id).map Container.status = some .stopped

theorem Present.rely {w' : World} (h : Present id who w) (hrely : Rely id who w w') :
  Present id who w'
  := by
  constructor
  · exact h.1.mono hrely.follows
  · rw [ne_eq, ← (hrely.aged h.1).absent]
    exact h.2

theorem Stopped.rely {w' : World} (h : Stopped id who w) (hrely : Rely id who w w') :
  Stopped id who w'
  := ⟨h.1.mono hrely.follows, (hrely.aged h.1).stopped h.2⟩

theorem Overdue.mono {sigterm_timeout : Caller → ℤ} {w' : World} (h : Overdue id sigterm_timeout w)
    (hfollows : Follows w w') :
  Overdue id sigterm_timeout w'
  := by
  obtain ⟨e, he, haccepts, hdue⟩ := h
  refine ⟨e, hfollows.history.subset he, haccepts, hdue.trans ?_⟩
  exact_mod_cast hfollows.now

/-! ### The commands of a caller -/

section Commands

variable {adm : TimedCall → Answer → World → Prop}

theorem wpUnder_catching {α : Type} {p : TimedPy α} {classes : List ExceptionClass}
    {Q : Post World PyException (Except PyException α)} :
  wpUnder (machine who) adm (Rely id who) (catching p classes) Q w
    ↔ wpUnder (machine who) adm (Rely id who) p
        { returned := fun a => Q.returned (.ok a)
          raised := fun e w => if e.cls ∈ classes then Q.returned (.error e) w else Q.raised e w
          cut := Q.cut } w
  := by
  induction p generalizing w with
  | pure a => exact Iff.rfl
  | throw e =>
      change wpUnder (machine who) adm (Rely id who)
          (if e.cls ∈ classes then pure (.error e) else .throw e) Q w
        ↔ ∀ w', Rely id who w w' →
          if e.cls ∈ classes then Q.returned (.error e) w' else Q.raised e w'
      split <;> exact Iff.rfl
  | call c k ih =>
      change (∀ w', _ → _ ∧ ∀ x, _ → wpUnder _ _ _ (catching (k _) classes) Q _) ↔ _
      simp only [ih]
      exact Iff.rfl

/-- A command that may fail. -/
theorem wpUnder_orThrow {p : TimedPy CmdResult} {error : CmdResult → PyException}
    {Q : Post World PyException Unit} :
  wpUnder (machine who) adm (Rely id who)
      (p >>= fun result => if result.ok then pure () else .throw (error result)) Q w
    ↔ wpUnder (machine who) adm (Rely id who) p
        { returned := fun result w =>
            if result.ok then Q.returned () w else Q.raised (error result) w
          raised := Q.raised
          cut := Q.cut } w
  := by
  change wpUnder (machine who) adm (Rely id who) (p.bind _) Q w ↔ _
  induction p generalizing w with
  | pure result =>
      change wpUnder (machine who) adm (Rely id who)
          (if result.ok then pure () else .throw (error result)) Q w
        ↔ ∀ w', Rely id who w w' →
          if result.ok then Q.returned () w' else Q.raised (error result) w'
      split <;> exact Iff.rfl
  | throw e => exact Iff.rfl
  | call c k ih => simp only [Prog.bind, wpUnder, ih]

theorem wpUnder_kill {signal : Text} {Q : Post World PyException Unit} (hcut : ∀ w, Q.cut w)
    (h : ∀ w₁ x w₂, Rely id who w w₁ → adm (.command (.runcKill id signal)) x w₁ →
      Rely id who (perform who (.command (.runcKill id signal)) x w₁).2 w₂ →
      if x.result.ok then Q.returned () w₂ else Q.raised (killError id x.result) w₂) :
  wpUnder (machine who) adm (Rely id who) (kill id signal) Q w
  := by
  rw [kill_eq, wpUnder_orThrow, wpUnder_issue]
  exact fun w₁ hw₁ => ⟨hcut w₁, fun x hx w₂ hw₂ => h w₁ x w₂ hw₁ hx hw₂⟩

end Commands

theorem started_perform (c : TimedCall) (x : Answer) (w : World) (who : Caller) :
  Started who (perform who c x w).2.history
  := ⟨_, List.mem_concat_self, rfl⟩

/-- The container as a command finds it. -/
theorem containers_settle (d : Device) (id : Text) (exited : Bool) :
  (d.settle id exited).containers id
    = (d.containers id).map fun c => if exited then { c with status := .stopped } else c
  := by
  unfold Device.settle
  cases hd : d.containers id with
  | none => simp [hd]
  | some c => cases exited <;> simp [hd]

theorem aged_settle (d : Device) (id : Text) (exited : Bool) :
  Aged (d.containers id) ((d.settle id exited).containers id)
  := by
  rw [containers_settle]
  cases d.containers id with
  | none => exact Aged.refl none
  | some c =>
      constructor
      · simp
      · cases exited <;> simp

/-- A container whose process has ended. -/
theorem exists_of_stopped {k : Option Container} (h : k.map Container.status = some .stopped) :
  ∃ bundle, k = some ⟨bundle, .stopped⟩
  := by
  obtain ⟨⟨bundle, status⟩, rfl, hstatus⟩ := Option.map_eq_some_iff.mp h
  obtain rfl : status = .stopped := hstatus
  exact ⟨bundle, rfl⟩

section Admitted

variable {sigterm_timeout : Caller → ℤ}

/-- A container whose process has ended is deleted. -/
theorem wpUnder_delete {Q : Post World PyException Unit} (hstopped : Stopped id who w)
    (hcut : ∀ w, Q.cut w) (hreturned : ∀ w', w'.device.containers id = none → Q.returned () w') :
  wpUnder (machine who) (Admitted id sigterm_timeout) (Rely id who) (delete id) Q w
  := by
  rw [delete_eq, wpUnder_orThrow, wpUnder_issue]
  intro w' hw'
  use hcut w'
  intro x hx w'' hw''
  have hsettled := (aged_settle w'.device id x.exited).stopped (hstopped.rely hw').2
  obtain ⟨bundle, hcontainer⟩ := exists_of_stopped hsettled
  have hok : x.result.ok = true := by
    have hanswer : DeleteAnswer x.result ((w'.device.settle id x.exited).containers id) := hx.1
    rwa [hcontainer] at hanswer
  change if x.result.ok then _ else _
  rw [if_pos hok]
  apply hreturned
  apply hw''.absent
  change (if x.result.ok then w'.device.setContainer id none else _).containers id = none
  rw [if_pos hok, Device.setContainer_same]

/-- The state of a container that is there is told.  When it is told after the deadline of
SIGTERM, it is 'stopped'. -/
theorem wpUnder_getState {Q : Post World PyException Text} (hpresent : Present id who w)
    (hcut : ∀ w, Q.cut w)
    (hreturned : ∀ state w', Follows w w' → Present id who w' →
      (state = ContainerState.STOPPED → Stopped id who w') →
      (Overdue id sigterm_timeout w → state = ContainerState.STOPPED) → Q.returned state w') :
  wpUnder (machine who) (Admitted id sigterm_timeout) (Rely id who) (getState id) Q w
  := by
  rw [getState_eq, wpUnder_issue_bind]
  intro w₁ hw₁
  use hcut w₁
  intro x hx
  change wpUnder (machine who) (Admitted id sigterm_timeout) (Rely id who)
    (timed (ofExcept (stateOf id x.result))) Q (perform who (.command (.runcState id)) x w₁).2
  have hanswer : StateAnswer id x.result ((w₁.device.settle id x.exited).containers id) := hx.1
  cases hcontainer : (w₁.device.settle id x.exited).containers id with
  | none => exact absurd ((aged_settle _ _ _).absent.mpr hcontainer) (hpresent.rely hw₁).2
  | some c =>
      rw [hcontainer] at hanswer
      rw [hanswer.2]
      intro w₂ hw₂
      have hstarted : Started who (perform who (.command (.runcState id)) x w₁).2.history :=
        started_perform _ x w₁ who
      have hfound : (perform who (.command (.runcState id)) x w₁).2.device.containers id = some c :=
        hcontainer
      apply hreturned
      · exact (hw₁.follows.trans (follows_perform _ x w₁)).trans hw₂.follows
      · have hthere : Present id who (perform who (.command (.runcState id)) x w₁).2 :=
          ⟨hstarted, by simp [hfound]⟩
        exact hthere.rely hw₂
      · intro hstate
        have hended : Stopped id who (perform who (.command (.runcState id)) x w₁).2 :=
          ⟨hstarted, by simp [hfound, status_text_eq_STOPPED.mp hstate]⟩
        exact hended.rely hw₂
      · intro hoverdue
        rw [containers_settle, hx.2.2 (hoverdue.mono hw₁.follows)] at hcontainer
        obtain ⟨c', -, hc'⟩ := Option.map_eq_some_iff.mp hcontainer
        rw [status_text_eq_STOPPED, ← hc', if_pos rfl]

/-- The polls tell 'stopped' when the process has ended, and otherwise that the time is over. -/
theorem wpUnder_pollForAppStop {endtime : ℤ} (polls : ℕ) (hpresent : Present id who w)
    (hpolls : endtime ≤ w.now + ((polls : ℤ) - 1) * WAIT_SLEEP_INTERVAL) :
  wpUnder (machine who) (Admitted id sigterm_timeout) (Rely id who)
    (pollForAppStop id endtime polls)
    { returned := fun stopped w' => Follows w w' ∧ Present id who w'
        ∧ if stopped then Stopped id who w' else endtime ≤ w'.now
      raised := fun _ _ => False
      cut := fun _ => True } w
  := by
  induction polls generalizing w with
  | zero =>
      intro w' hw'
      refine ⟨hw'.follows, hpresent.rely hw', ?_⟩
      have hnow := hw'.follows.now
      simp only [WAIT_SLEEP_INTERVAL] at hpolls
      rw [if_neg (by decide)]
      omega
  | succ polls ih =>
      rw [pollForAppStop, wpUnder_issue_bind]
      intro w₁ hw₁
      refine ⟨trivial, fun x _ => ?_⟩
      change wpUnder (machine who) (Admitted id sigterm_timeout) (Rely id who)
        (if endtime > ((w₁.now + x.elapsed : ℕ) : ℤ) then _ else _) _
        (perform who .monotonic x w₁).2
      have hread : Follows w (perform who .monotonic x w₁).2 :=
        hw₁.follows.trans (follows_perform .monotonic x w₁)
      have hthere : Present id who (perform who .monotonic x w₁).2 :=
        ⟨started_perform _ x w₁ who, (hpresent.rely hw₁).2⟩
      have hreading : (perform who .monotonic x w₁).2.now = w₁.now + x.elapsed := rfl
      generalize (perform who .monotonic x w₁).2 = w₂ at hread hthere hreading ⊢
      split
      · apply wpUnder_bind
        apply wpUnder_getState hthere fun _ => trivial
        intro state w₃ hqueried hthere₃ hstopped _
        dsimp only
        split
        · intro w₄ hw₄
          refine ⟨(hread.trans hqueried).trans hw₄.follows, hthere₃.rely hw₄, ?_⟩
          rw [if_pos rfl]
          exact (hstopped ‹_›).rely hw₄
        · rw [wpUnder_issue_bind]
          intro w₄ hw₄
          refine ⟨trivial, fun z _ => ?_⟩
          have hslept : Follows w w₄ := (hread.trans hqueried).trans hw₄.follows
          have hnow := hslept.now
          apply (ih (w := (perform who (.sleep WAIT_SLEEP_INTERVAL) z w₄).2)
            ⟨started_perform _ z w₄ who, (hthere₃.rely hw₄).2⟩ _).mono
          · rintro stopped w' ⟨hfollows, hends⟩
            exact ⟨(hslept.trans (follows_perform _ z w₄)).trans hfollows, hends⟩
          · exact fun _ _ h => h
          · exact fun _ h => h
          · change endtime ≤ ((w₄.now + (WAIT_SLEEP_INTERVAL + z.elapsed) : ℕ) : ℤ) + _
            push_cast at hpolls
            simp only [WAIT_SLEEP_INTERVAL] at hpolls ⊢
            omega
      · intro w₃ hw₃
        refine ⟨hread.trans hw₃.follows, hthere.rely hw₃, ?_⟩
        have hnow := hw₃.follows.now
        rw [if_neg (by decide)]
        omega

/-- The process in the container has ended when the wait for it is over. -/
theorem wpUnder_waitForAppStop {accepted : Event} (hpresent : Present id who w)
    (hmem : accepted ∈ w.history) (haccepts : accepted.AcceptsSigterm id)
    (hwho : accepted.who = who) (hanswered : accepted.answeredAt ≤ w.now) :
  wpUnder (machine who) (Admitted id sigterm_timeout) (Rely id who)
    (waitForAppStop id (sigterm_timeout who))
    { returned := fun _ w' => Stopped id who w', raised := fun _ _ => False, cut := fun _ => True }
    w
  := by
  rw [waitForAppStop, wpUnder_issue_bind]
  intro w₁ hw₁
  refine ⟨trivial, fun x _ => ?_⟩
  have hthere : Present id who (perform who .monotonic x w₁).2 :=
    ⟨started_perform _ x w₁ who, (hpresent.rely hw₁).2⟩
  have hread : Follows w (perform who .monotonic x w₁).2 :=
    hw₁.follows.trans (follows_perform .monotonic x w₁)
  have hreading : (perform who .monotonic x w₁).2.now = w₁.now + x.elapsed := rfl
  change wpUnder (machine who) (Admitted id sigterm_timeout) (Rely id who)
    (pollForAppStop id ((w₁.now + x.elapsed : ℕ) + sigterm_timeout who * SECOND)
      (pollsWithin (sigterm_timeout who)) >>= _) _ (perform who .monotonic x w₁).2
  rw [← hreading]
  have hnow := hw₁.follows.now
  generalize (perform who .monotonic x w₁).2 = w₂ at hthere hread hreading ⊢
  apply wpUnder_bind
  apply (wpUnder_pollForAppStop _ hthere (le_pollsWithin w₂.now _)).mono
  · rintro stopped w₃ ⟨hpolled, hthere₃, hends⟩
    dsimp only
    split
    · rw [if_pos ‹_›] at hends
      exact fun w₄ hw₄ => hends.rely hw₄
    · rw [if_neg ‹_›] at hends
      -- the deadline has passed, so the last query tells 'stopped'
      have hoverdue : Overdue id sigterm_timeout w₃ := by
        refine ⟨accepted, (hread.trans hpolled).history.subset hmem, haccepts, ?_⟩
        rw [hwho]
        omega
      apply wpUnder_bind
      apply wpUnder_getState hthere₃ fun _ => trivial
      intro state w₄ _ _ hstopped hdue
      dsimp only
      rw [if_pos (hdue hoverdue)]
      exact fun w₅ hw₅ => (hstopped (hdue hoverdue)).rely hw₅
  · exact fun _ _ h => h
  · exact fun _ h => h

/-- What a command says is in the message of the error. -/
theorem says_killError {phrases : List Text} {result : CmdResult} (h : Says phrases result)
    (hne : [] ∉ phrases) :
  (killError id result).cls = .ContainerKillError
    ∧ ∃ phrase ∈ phrases, occursIn phrase (killError id result).msg = true
  := by
  obtain ⟨text, htext, hphrase⟩ := (Option.any_eq_true _ _).mp h.2
  obtain ⟨phrase, hmem, hoccurs⟩ := List.any_eq_true.mp hphrase
  have hinfix : phrase <:+: text := of_decide_eq_true hoccurs
  unfold killError commandError
  rw [htext]
  cases text with
  | nil => exact absurd (List.infix_nil.mp hinfix ▸ hmem) hne
  | cons c text => exact ⟨rfl, phrase, hmem, occursIn_cmdMessage hinfix⟩

/-- Where there is no container, no error says that a process has ended. -/
theorem not_saysStopped_killError {result : CmdResult} (hid : ClearName id)
    (htruth : SaysTheTruth result none) (hfails : result.ok = false) :
  saysStopped (killError id result) = false
  := by
  rw [Bool.eq_false_iff]
  intro htold
  obtain ⟨phrase, hmem, hoccurs⟩ := List.any_eq_true.mp htold
  have hphrase : phrase ∈ PHRASES := by
    simp only [List.mem_cons, List.not_mem_nil, or_false] at hmem
    rcases hmem with rfl | rfl <;> decide
  obtain ⟨text, htext, hprinted⟩ := printed_of_mem_killError hphrase (hid phrase hmem) hoccurs
  have hstopped := (htruth hfails text htext).1
  simp only [List.mem_cons, List.not_mem_nil, or_false] at hmem
  rcases hmem with rfl | rfl
  · exact absurd (hstopped (Or.inl hprinted)) (by decide)
  · exact absurd (hstopped (Or.inr hprinted)) (by decide)

/-- What SIGTERM meets: no container, and the error says so; a process that has ended, and the error
says so; or a process that gets it. -/
theorem wpUnder_sigterm {Q : Post World PyException Unit} (hcut : ∀ w, Q.cut w)
    (hnone : ∀ error w', error.cls = .ContainerKillError → saysStopped error = false →
      saysDoesNotExist error = true → w'.device.containers id = none → Q.raised error w')
    (hstopped : ∀ error w', error.cls = .ContainerKillError → saysStopped error = true →
      Stopped id who w' → Q.raised error w')
    (hsent : ∀ (accepted : Event) (w' : World), Present id who w' → accepted ∈ w'.history →
      accepted.AcceptsSigterm id → accepted.who = who → accepted.answeredAt ≤ w'.now →
      Q.returned () w') :
  wpUnder (machine who) (Both (Admitted id sigterm_timeout) FindsContainer) (Rely id who)
    (kill id "SIGTERM".toList) Q w
  := by
  apply wpUnder_kill hcut
  intro w₁ x w₂ _ hx hw₂
  have hanswer : KillAnswer x.result ((w₁.device.settle id x.exited).containers id) := hx.1.1
  have htruth : SaysTheTruth x.result ((w₁.device.settle id x.exited).containers id) := hx.1.2.1
  have hid : w₁.device.containers id = none → ClearName id := hx.2
  have hstarted := started_perform (.command (.runcKill id "SIGTERM".toList)) x w₁ who
  have hmem : ⟨who, w₁.now, w₁.now + x.elapsed, .command (.runcKill id "SIGTERM".toList),
      x.result⟩ ∈ w₂.history := hw₂.follows.history.subset List.mem_concat_self
  have hnow : w₁.now + x.elapsed ≤ w₂.now := hw₂.follows.now
  generalize hw' : (perform who (.command (.runcKill id "SIGTERM".toList)) x w₁).2 = w'
    at hw₂ hstarted
  have hfound : w'.device.containers id = (w₁.device.settle id x.exited).containers id := by
    rw [← hw']
    rfl
  cases hcontainer : (w₁.device.settle id x.exited).containers id with
  | none =>
      have hclear : ClearName id := hid ((aged_settle _ _ _).absent.mpr hcontainer)
      rw [hcontainer] at hanswer htruth hfound
      obtain ⟨hcls, phrase, hphrase, hoccurs⟩ := says_killError hanswer (by decide)
      obtain rfl := List.mem_singleton.mp hphrase
      rw [if_neg (by rw [hanswer.1]; decide)]
      exact hnone _ _ hcls (not_saysStopped_killError hclear htruth hanswer.1) hoccurs
        (hw₂.absent hfound)
  | some c =>
      obtain ⟨bundle, status⟩ := c
      rw [hcontainer] at hanswer hfound
      cases status with
      | stopped =>
          have hended : Stopped id who w' := ⟨hstarted, by rw [hfound]; rfl⟩
          obtain ⟨hcls, hphrase⟩ := says_killError hanswer (by decide)
          rw [if_neg (by rw [hanswer.1]; decide)]
          exact hstopped _ _ hcls (List.any_eq_true.mpr hphrase) (hended.rely hw₂)
      | created | running =>
          have hok : x.result.ok = true := hanswer
          have hpresent : Present id who w' :=
            ⟨hstarted, by rw [hfound]; exact Option.some_ne_none _⟩
          rw [if_pos hok]
          exact hsent _ _ (hpresent.rely hw₂) hmem ⟨rfl, rfl, hok⟩ rfl hnow

/-- Whatever the container is when SIGTERM is sent, there is none when the caller ends. -/
theorem wpUnder_terminateApp (sigkill_timeout : ℤ) :
  wpUnder (machine who) (Both (Admitted id sigterm_timeout) FindsContainer) (Rely id who)
    (terminateApp id (sigterm_timeout who) sigkill_timeout)
    { returned := fun _ w' => w'.device.containers id = none
      raised := fun _ _ => False
      cut := fun _ => True } w
  := by
  rw [terminateApp]
  apply wpUnder_bind
  rw [wpUnder_catching]
  apply wpUnder_sigterm fun _ => trivial
  · -- there is nothing to terminate
    intro error w₁ hcls hnotStopped htold habsent
    dsimp only
    rw [if_pos (by rw [hcls]; decide), hnotStopped, if_neg (by decide), if_pos htold]
    exact fun w₂ hw₂ => hw₂.absent habsent
  · intro error w₁ hcls htold hstopped
    dsimp only
    rw [if_pos (by rw [hcls]; decide), if_pos htold]
    apply wpUnder.of_admits _ fun _ _ _ h => h.1
    exact wpUnder_delete hstopped (fun _ => trivial) fun _ h => h
  · -- SIGTERM is sent, and the process ends in time
    intro accepted w₁ hpresent hmem haccepts hwho hnow
    dsimp only
    apply wpUnder.of_admits _ fun _ _ _ h => h.1
    apply wpUnder_bind
    rw [wpUnder_catching]
    apply (wpUnder_waitForAppStop hpresent hmem haccepts hwho hnow).mono
    · intro _ w₂ hw₂
      exact wpUnder_delete hw₂ (fun _ => trivial) fun _ h => h
    · exact fun _ _ h => h.elim
    · exact fun _ h => h

end Admitted

end App.Timed
