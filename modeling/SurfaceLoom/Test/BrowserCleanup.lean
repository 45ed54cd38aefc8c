import SurfaceLoom.Test.BrowserController

/-! # What a browser cleanup guarantees

In every run a session is closed once, after the cleanup was called and whenever it
is delivered; the receipt is final, and it says released only for a launch that
failed unsubmitted or with a matching proof inside the boundary. -/
namespace SurfaceLoom.Test.BrowserController
open SurfaceLoom.Lib.Transition

variable {τ : Type} {settings : Settings τ} {c c' : Controller τ}

/-! ## What is claimed -/

/-- What the cleanup yields. -/
def Controller.receipt (c : Controller τ) : Option Receipt :=
  match c.stage with
  | .returned receipt | .done receipt => some receipt
  | _ => none

/-- Callbacks and continuations, which the event loop runs before anything else. -/
def Event.isJob : Event τ → Bool
  | .observe | .notice _ | .resume .. | .leaseResume _ => true
  | _ => false

/-- No callback or continuation is due. -/
def Quiet (settings : Settings τ) (c : Controller τ) : Prop :=
  ∀ event : Event τ, event.isJob = true → c.next settings event = none

/-- The boundary was open when it was looked at. -/
def Open (settings : Settings τ) (c : Controller τ) (check : Check τ) : Prop :=
  check.aborted = false ∧ ∃ deadlineAt, c.deadlineAt = some deadlineAt ∧
    settings.reached check.now deadlineAt = false

/-- Nothing was submitted before the launch failed, or there was no launch. -/
def Unsubmitted (c : Controller τ) : Prop :=
  c.watched = false ∨ ∃ reason, c.observed = .failed false reason

/-- The proof is of the session that was delivered, and was there when the boundary was
looked at. -/
def Proved (settings : Settings τ) (c : Controller τ) : Prop :=
  ∃ session proof check, c.outcome = some (.ok session) ∧
    c.close = some (.fulfilled (some proof)) ∧ proof.isOf session = true ∧
      c.check = some check ∧ Open settings c check

def Stage.work : Stage → Nat
  | notCalled | done _ => 0
  | returned _ => 1
  | interrupted _ | closeFailed _ => 2
  | closed _ _ => 3
  | awaitingClose _ => 4
  | resumed _ => 5
  | awaitingSettled => 6

def Controller.callbacks (c : Controller τ) : Nat :=
  (if c.observed = .notStarted then 2 else 0) + (if c.noticing then 1 else 0) + c.leaseCalls

/-- How many callbacks and continuations may still run before something else happens. -/
def Controller.work (c : Controller τ) : Nat := c.callbacks + c.stage.work

structure Clean (settings : Settings τ) (c : Controller τ) : Prop where
  once : c.closes.length ≤ 1
  called : c.closes ≠ [] → c.stage ≠ .notCalled
  closed : c.stage ≠ .notCalled → ∀ session, c.outcome = some (.ok session) →
    Quiet settings c → c.closes = [session]
  /-- Callbacks and continuations run out. -/
  drains : ∀ event c', event.isJob = true → c.next settings event = some c' → c'.work < c.work
  honest : c.receipt = some .released → Unsubmitted c ∨ Proved settings c
  leases : ∀ release ∈ c.leaseReleases, release.receipt = some .released ∧
    c.receipt = some .released ∧ Open settings c release.check
  final : ∀ receipt, c.receipt = some receipt → ∀ events c',
    (controller settings).Exec c events c' → c'.receipt = some receipt

/-! ## The invariant -/

/-- What is so at a stage. -/
def StageSound (settings : Settings τ) (c : Controller τ) : Stage → Prop
  | .resumed settled => c.settled = some settled
  | .awaitingClose session => c.observed = .acquired session
  | .closed session proof => c.observed = .acquired session ∧ c.close = some (.fulfilled proof)
  | .returned receipt => receipt = .released → Unsubmitted c ∨ Proved settings c
  | .done receipt => c.terminal = some receipt ∧
      (receipt = .released → Unsubmitted c ∨ Proved settings c)
  | _ => True

/-- At these stages the session that was delivered is still to be closed. -/
def Closing (session : BrowserSession) : Stage → Prop
  | .awaitingSettled | .interrupted _ => True
  | .resumed settled => settled = .acquired session
  | _ => False

structure Sound (settings : Settings τ) (c : Controller τ) : Prop where
  observed : match c.observed with
    | .notStarted => True
    | .acquired session => c.outcome = some (.ok session)
    | .failed _ reason => c.outcome = some (.error reason)
  watched : c.watched = false → c.outcome = none
  closes : c.close = none ∧ c.closes = [] ∨ ∃ session, c.close ≠ none ∧ c.closes = [session] ∧
    c.observed = .acquired session
  called : c.stage = .notCalled → c.close = none ∧ c.terminal = none ∧ c.leaseReleases = []
  deadlineAt : c.stage ≠ .notCalled → c.deadlineAt.isSome = true
  stage : StageSound settings c c.stage
  owed : c.stage ≠ .notCalled → ∀ session, c.observed = .acquired session →
    c.closes = [session] ∨ c.noticing = true ∨ Closing session c.stage
  terminal : ∀ receipt, c.terminal = some receipt → c.stage = .done receipt
  leases : ∀ release ∈ c.leaseReleases, release.receipt = some .released ∧
    c.terminal = some .released ∧ Open settings c release.check

/-- A stage that is entered before the receipt is final. -/
theorem Sound.enter {stage : Stage} (h : Sound settings c) (hterminal : c.terminal = none)
    (hcalled : c.deadlineAt.isSome = true) (hstage : StageSound settings c stage)
    (hnot : stage ≠ .notCalled) (howed : ∀ session, c.observed = .acquired session →
      c.closes = [session] ∨ c.noticing = true ∨ Closing session stage) :
    Sound settings { c with stage := stage } where
  observed := h.observed
  watched := h.watched
  closes := h.closes
  called hstart := absurd hstart hnot
  deadlineAt _ := hcalled
  stage := by
    cases stage <;> exact hstage
  owed _ := howed
  terminal receipt hreceipt := by
    rw [show c.terminal = some receipt from hreceipt] at hterminal
    cases hterminal
  leases := h.leases

/-- The parts that a stage rests on are the same, or the close settled. -/
structure Same (c c' : Controller τ) : Prop where
  watched : c'.watched = c.watched
  outcome : ∀ session, c.outcome = some (.ok session) → c'.outcome = some (.ok session)
  observed : c'.observed = c.observed
  deadlineAt : c'.deadlineAt = c.deadlineAt
  close : ∀ proof, c.close = some (.fulfilled proof) → c'.close = some (.fulfilled proof)
  terminal : c'.terminal = c.terminal
  check : c'.check = c.check

theorem Open.same {check : Check τ} (h : Open settings c check) (hsame : Same c c') :
    Open settings c' check := by
  obtain ⟨haborted, deadlineAt, hdeadlineAt, hreached⟩ := h
  exact ⟨haborted, deadlineAt, hsame.deadlineAt.trans hdeadlineAt, hreached⟩

theorem Unsubmitted.same (h : Unsubmitted c) (hsame : Same c c') : Unsubmitted c' := by
  rcases h with hwatched | ⟨reason, hfailed⟩
  · exact .inl (hsame.watched.trans hwatched)
  · exact .inr ⟨reason, hsame.observed.trans hfailed⟩

theorem Proved.same (h : Proved settings c) (hsame : Same c c') : Proved settings c' := by
  obtain ⟨session, proof, check, houtcome, hclose, hproof, hcheck, hopen⟩ := h
  exact ⟨session, proof, check, hsame.outcome _ houtcome, hsame.close _ hclose, hproof,
    hsame.check.trans hcheck, hopen.same hsame⟩

theorem StageSound.same {stage : Stage} (h : StageSound settings c stage) (hsame : Same c c') :
    StageSound settings c' stage := by
  have hreleased : Unsubmitted c ∨ Proved settings c → Unsubmitted c' ∨ Proved settings c' :=
    Or.imp (fun hun => hun.same hsame) fun hproved => hproved.same hsame
  cases stage with
  | notCalled | awaitingSettled | interrupted _ | closeFailed _ => trivial
  | resumed settled =>
    show c'.settled = some settled
    unfold Controller.settled
    rw [hsame.watched, hsame.observed]
    exact h
  | awaitingClose session => exact hsame.observed.trans h
  | closed session proof => exact ⟨hsame.observed.trans h.1, hsame.close _ h.2⟩
  | returned receipt => exact fun hreceipt => hreleased (h hreceipt)
  | done receipt => exact ⟨hsame.terminal.trans h.1, fun hreceipt => hreleased (h.2 hreceipt)⟩

/-- Only the close, the promises or the signals move. -/
theorem Sound.same (h : Sound settings c) (hsame : Same c c') (hstage : c'.stage = c.stage)
    (hobserved : match c.observed with
      | .notStarted => True
      | .acquired session => c'.outcome = some (.ok session)
      | .failed _ reason => c'.outcome = some (.error reason))
    (hwatched : c.watched = false → c'.outcome = none)
    (hcloses : c'.close = none ∧ c'.closes = [] ∨
      ∃ session, c'.close ≠ none ∧ c'.closes = [session] ∧ c.observed = .acquired session)
    (hcalled : c.stage = .notCalled → c'.close = none)
    (howed : c.stage ≠ .notCalled → ∀ session, c.observed = .acquired session →
      c'.closes = [session] ∨ c'.noticing = true ∨ Closing session c.stage)
    (hleases : c'.leaseReleases = c.leaseReleases) : Sound settings c' where
  observed := by
    rw [hsame.observed]
    exact hobserved
  watched hnot := hwatched (hsame.watched.symm.trans hnot)
  closes := by
    rw [hsame.observed]
    exact hcloses
  called hnot := by
    rw [hstage] at hnot
    exact ⟨hcalled hnot, hsame.terminal.trans (h.called hnot).2.1, hleases.trans (h.called hnot).2.2⟩
  deadlineAt hcall := by
    rw [hsame.deadlineAt]
    exact h.deadlineAt (hstage ▸ hcall)
  stage := by
    rw [hstage]
    exact h.stage.same hsame
  owed hcall := by
    rw [hsame.observed, hstage]
    exact howed (hstage ▸ hcall)
  terminal receipt hreceipt := by
    rw [hstage]
    exact h.terminal receipt (hsame.terminal.symm.trans hreceipt)
  leases release hrelease := by
    rw [hleases] at hrelease
    obtain ⟨hreceipt, hterminal, hopen⟩ := h.leases release hrelease
    exact ⟨hreceipt, hsame.terminal.trans hterminal, hopen.same hsame⟩

/-- A session that was seen is closed, if it was not yet. -/
theorem Sound.startClose {session : BrowserSession} (throws : Option String)
    (h : Sound settings c) (hcalled : c.stage ≠ .notCalled)
    (hobserved : c.observed = .acquired session) :
    Sound settings (c.startClose session throws) ∧
      (c.startClose session throws).closes = [session] := by
  unfold Controller.startClose
  split
  · rename_i close hclose
    rcases h.closes with ⟨hnone, -⟩ | ⟨session', -, hcloses, hobserved'⟩
    · rw [hclose] at hnone
      cases hnone
    · rw [hobserved] at hobserved'
      cases hobserved'
      exact ⟨h, hcloses⟩
  · rename_i hclose
    have hcloses : c.closes ++ [session] = [session] := by
      rcases h.closes with ⟨-, hnil⟩ | ⟨_, hsome, -⟩
      · rw [hnil, List.nil_append]
      · exact absurd hclose hsome
    refine ⟨Sound.same h ⟨rfl, fun _ houtcome => houtcome, rfl, rfl, fun proof hproof => ?_, rfl, rfl⟩
      rfl h.observed h.watched (.inr ⟨session, ?_, hcloses, hobserved⟩)
      (fun hnot => absurd hnot hcalled) (fun _ session' hobserved' => .inl ?_) rfl, hcloses⟩
    · rw [hclose] at hproof
      cases hproof
    · exact Option.some_ne_none _
    · rw [hobserved] at hobserved'
      cases hobserved'
      exact hcloses

theorem Sound.startCloseOf {settled : Settlement} (throws : Option String)
    (h : Sound settings c) (hcalled : c.stage ≠ .notCalled)
    (hsettled : ∀ session, settled = .acquired session → c.observed = .acquired session) :
    Sound settings (c.startCloseOf settled throws) ∧ ∀ session, settled = .acquired session →
      (c.startCloseOf settled throws).closes = [session] := by
  cases settled with
  | notStarted => exact ⟨h, nofun⟩
  | failed submitted reason => exact ⟨h, nofun⟩
  | acquired session =>
    obtain ⟨hsound, hcloses⟩ := Sound.startClose throws h hcalled (hsettled session rfl)
    refine ⟨hsound, ?_⟩
    rintro _ ⟨⟩
    exact hcloses

/-! ## Steps -/

theorem settled_eq {settled : Settlement} (h : c.settled = some settled) :
    c.observed = settled ∧ (settled = .notStarted → c.watched = false) ∨
      c.watched = false ∧ settled = .notStarted := by
  unfold Controller.settled at h
  split at h
  · rename_i hwatched
    cases h
    exact .inr ⟨Bool.eq_false_iff.mpr hwatched, rfl⟩
  · split at h
    · cases h
    · rename_i hobserved
      cases h
      exact .inl ⟨rfl, fun hnot => absurd hnot hobserved⟩

theorem observed_of_settled {session : BrowserSession}
    (h : c.settled = some (.acquired session)) : c.observed = .acquired session := by
  rcases settled_eq h with ⟨hobserved, -⟩ | ⟨-, hnot⟩
  · exact hobserved
  · cases hnot

/-- A boundary that was not found stopped is open. -/
theorem Sound.open (h : Sound settings c) (hcalled : c.stage ≠ .notCalled) {now : τ}
    (hstopped : c.stopped settings now = false) : Open settings c ⟨now, c.aborted⟩ := by
  obtain ⟨deadlineAt, hdeadlineAt⟩ := Option.isSome_iff_exists.mp (h.deadlineAt hcalled)
  obtain ⟨hreached, haborted⟩ := Bool.or_eq_false_iff.mp hstopped
  rw [hdeadlineAt] at hreached
  exact ⟨haborted, deadlineAt, hdeadlineAt, hreached⟩

/-- The look that a receipt is given after. -/
theorem Sound.look (h : Sound settings c) (hreceipt : c.receipt = none) (check : Check τ) :
    Sound settings { c with check := some check } := by
  refine ⟨h.observed, h.watched, h.closes, h.called, h.deadlineAt, ?_, h.owed, h.terminal, h.leases⟩
  have hstage := h.stage
  unfold Controller.receipt at hreceipt
  show StageSound settings { c with check := some check } c.stage
  cases hc : c.stage with
  | returned receipt | done receipt =>
    rw [hc] at hreceipt
    cases hreceipt
  | notCalled | awaitingSettled | resumed _ | interrupted _ | awaitingClose _ | closed _ _
  | closeFailed _ =>
    rw [hc] at hstage
    exact hstage

/-- A receipt is given. -/
theorem Sound.finish {receipt : Receipt} (h : Sound settings c) (hcalled : c.stage ≠ .notCalled)
    (hterminal : c.terminal = none)
    (hreleased : receipt = .released → Unsubmitted c ∨ Proved settings c)
    (howed : ∀ session, c.observed = .acquired session →
      c.closes = [session] ∨ c.noticing = true) :
    Sound settings (c.finish receipt) := by
  refine Sound.enter h hterminal (h.deadlineAt hcalled) hreleased nofun fun session hsession => ?_
  rcases howed session hsession with hcloses | hnoticing
  · exact .inl hcloses
  · exact .inr (.inl hnoticing)

theorem Sound.afterSettled {settled : Settlement} {now later : τ} {throws : Option String}
    (h : Sound settings c) (hstage : c.stage = .resumed settled) (hterminal : c.terminal = none) :
    Sound settings (c.afterSettled settings settled now later throws) := by
  have hcalled : c.stage ≠ .notCalled := by
    rw [hstage]
    nofun
  have hsettled : c.settled = some settled := by
    have hsound := h.stage
    rw [hstage] at hsound
    exact hsound
  have hreceipt : c.receipt = none := by
    rw [Controller.receipt, hstage]
  have hseen : ∀ session, settled = .acquired session → c.observed = .acquired session := by
    rintro session rfl
    exact observed_of_settled hsettled
  have howed : ∀ session, c.observed = .acquired session → settled = .acquired session := by
    intro session hsession
    rcases settled_eq hsettled with ⟨hobserved, -⟩ | ⟨hwatched, -⟩
    · rw [← hobserved, hsession]
    · have hnone := h.watched hwatched
      have hobserved := h.observed
      rw [hsession, hnone] at hobserved
      cases hobserved
  obtain ⟨hclosing, hcloses⟩ := Sound.startCloseOf throws h hcalled hseen
  unfold Controller.afterSettled
  split
  · refine hclosing.finish (by simpa using hcalled) (by simpa using hterminal) nofun ?_
    intro session hsession
    rw [Controller.startCloseOf_observed] at hsession
    exact .inl (hcloses session (howed session hsession))
  · rename_i hopen
    rw [Bool.not_eq_true] at hopen
    have hnone : ∀ session, c.observed = .acquired session → settled ≠ .acquired session →
        c.closes = [session] ∨ c.noticing = true :=
      fun session hsession hne => absurd (howed session hsession) hne
    split
    · refine Sound.finish (h.look hreceipt _) hcalled hterminal (fun _ => .inl ?_)
        fun session hsession => hnone session hsession nofun
      rcases settled_eq hsettled with ⟨-, hwatched⟩ | ⟨hwatched, -⟩
      · exact .inl (hwatched rfl)
      · exact .inl hwatched
    · rename_i reason
      refine Sound.finish (h.look hreceipt _) hcalled hterminal (fun _ => .inl (.inr ⟨reason, ?_⟩))
        fun session hsession => hnone session hsession nofun
      rcases settled_eq hsettled with ⟨hobserved, -⟩ | ⟨-, hnot⟩
      · exact hobserved
      · cases hnot
    · exact h.finish hcalled hterminal nofun fun session hsession => hnone session hsession nofun
    · rename_i session
      have hcloses' := hcloses session rfl
      have hstill : ∀ other, c.observed = .acquired other → other = session := by
        intro other hother
        cases howed other hother
        rfl
      have hsound : ∀ stage, StageSound settings (c.startCloseOf (.acquired session) throws) stage →
          stage ≠ .notCalled →
          Sound settings { c.startCloseOf (.acquired session) throws with stage := stage } := by
        intro stage hstage' hnot
        refine Sound.enter hclosing (by simpa using hterminal)
          (by simpa using h.deadlineAt hcalled) hstage' hnot fun other hother => .inl ?_
        rw [Controller.startCloseOf_observed] at hother
        rw [hstill other hother]
        exact hcloses'
      show Sound settings (if (c.startClose session throws).stopped settings later then _ else _)
      split
      · exact hsound _ trivial nofun
      · refine hsound _ ?_ nofun
        show (c.startCloseOf (.acquired session) throws).observed = .acquired session
        rw [Controller.startCloseOf_observed]
        exact hseen session rfl

theorem Sound.afterClose {session : BrowserSession} {proof : Option BrowserCloseProof}
    {now later : τ} {evidence : Option String} {error : String} (h : Sound settings c)
    (hstage : c.stage = .closed session proof) (hterminal : c.terminal = none) :
    Sound settings (c.afterClose settings session proof now later evidence error) := by
  have hcalled : c.stage ≠ .notCalled := by
    rw [hstage]
    nofun
  have hreceipt : c.receipt = none := by
    rw [Controller.receipt, hstage]
  obtain ⟨hobserved, hclose⟩ : c.observed = .acquired session ∧ c.close = some (.fulfilled proof) := by
    have hsound := h.stage
    rw [hstage] at hsound
    exact hsound
  have howed : ∀ other, c.observed = .acquired other → c.closes = [other] ∨ c.noticing = true := by
    intro other hother
    rcases h.closes with ⟨hnone, -⟩ | ⟨closed, -, hcloses, hclosed⟩
    · rw [hclose] at hnone
      cases hnone
    · rw [hother] at hclosed
      cases hclosed
      exact .inl hcloses
  unfold Controller.afterClose
  split
  · exact h.finish hcalled hterminal nofun howed
  · split
    · exact h.finish hcalled hterminal nofun howed
    · rename_i proof
      split
      · exact h.finish hcalled hterminal nofun howed
      · rename_i hproof
        split
        · exact h.finish hcalled hterminal nofun howed
        · split
          · exact h.finish hcalled hterminal nofun howed
          · rename_i hopen
            rw [Bool.not_eq_true] at hopen
            refine Sound.finish (h.look hreceipt _) hcalled hterminal (fun _ => .inr ?_) howed
            have houtcome := h.observed
            rw [hobserved] at houtcome
            exact ⟨session, proof, _, houtcome, hclose, Bool.not_eq_false _ ▸ hproof, rfl,
              h.open hcalled hopen⟩

/-- Nothing was said before the end. -/
theorem Sound.untold (h : Sound settings c) (hstage : ∀ receipt, c.stage ≠ .done receipt) :
    c.terminal = none := by
  cases hterminal : c.terminal with
  | none => rfl
  | some receipt => exact absurd (h.terminal receipt hterminal) (hstage receipt)

theorem Sound.resume {now later : τ} {throws evidence : Option String} {error : String}
    (h : Sound settings c)
    (hstep : c.resume settings now later throws evidence error = some c') : Sound settings c' := by
  unfold Controller.resume at hstep
  split at hstep
  · cases hstep
  · rename_i hstage
    have hterminal := h.untold (fun receipt => by rw [hstage]; nofun)
    have hcalled : c.stage ≠ .notCalled := by
      rw [hstage]
      nofun
    obtain ⟨settled, hsettled, rfl⟩ := Option.map_eq_some_iff.mp hstep
    split
    · exact h.enter hterminal (h.deadlineAt hcalled) trivial nofun
        fun session hsession => .inr (.inr trivial)
    · refine h.enter hterminal (h.deadlineAt hcalled) hsettled nofun fun session hsession => ?_
      rcases settled_eq hsettled with ⟨hobserved, -⟩ | ⟨hwatched, -⟩
      · exact .inr (.inr (hobserved.symm.trans hsession))
      · have hnone := h.watched hwatched
        have hobserved := h.observed
        rw [hsession, hnone] at hobserved
        cases hobserved
  · rename_i message hstage
    have hterminal := h.untold (fun receipt => by rw [hstage]; nofun)
    have hcalled : c.stage ≠ .notCalled := by
      rw [hstage]
      nofun
    cases hstep
    obtain ⟨hclosing, hcloses⟩ := Sound.startCloseOf throws h hcalled (fun session hsession => hsession)
    refine hclosing.finish (by simpa using hcalled) (by simpa using hterminal) nofun ?_
    intro session hsession
    rw [Controller.startCloseOf_observed] at hsession
    exact .inl (hcloses session hsession)
  · rename_i settled hstage
    cases hstep
    exact h.afterSettled hstage (h.untold (fun receipt => by rw [hstage]; nofun))
  · rename_i session hstage
    have hterminal := h.untold (fun receipt => by rw [hstage]; nofun)
    have hcalled : c.stage ≠ .notCalled := by
      rw [hstage]
      nofun
    have hobserved : c.observed = .acquired session := by
      have hsound := h.stage
      rw [hstage] at hsound
      exact hsound
    have howed : ∀ stage other, c.observed = .acquired other →
        c.closes = [other] ∨ c.noticing = true ∨ Closing other stage := by
      intro stage other hother
      rcases h.owed hcalled other hother with hcloses | hnoticing | hclosing
      · exact .inl hcloses
      · exact .inr (.inl hnoticing)
      · rw [hstage] at hclosing
        exact hclosing.elim
    split at hstep
    · rename_i proof hclose
      cases hstep
      refine h.enter hterminal (h.deadlineAt hcalled) ?_ ?_ (howed _)
      · split
        · exact trivial
        · exact ⟨hobserved, hclose⟩
      · split <;> nofun
    · cases hstep
      exact h.enter hterminal (h.deadlineAt hcalled) trivial nofun (howed _)
    · cases hstep
  · rename_i session proof hstage
    cases hstep
    exact h.afterClose hstage (h.untold (fun receipt => by rw [hstage]; nofun))
  · rename_i message hstage
    have hterminal := h.untold (fun receipt => by rw [hstage]; nofun)
    have hcalled : c.stage ≠ .notCalled := by
      rw [hstage]
      nofun
    cases hstep
    refine h.finish hcalled hterminal nofun fun session hsession => ?_
    rcases h.owed hcalled session hsession with hcloses | hnoticing | hclosing
    · exact .inl hcloses
    · exact .inr hnoticing
    · rw [hstage] at hclosing
      exact hclosing.elim
  · rename_i receipt hstage
    have hterminal := h.untold (fun receipt => by rw [hstage]; nofun)
    have hcalled : c.stage ≠ .notCalled := by
      rw [hstage]
      nofun
    have hreleased : receipt = .released → Unsubmitted c ∨ Proved settings c := by
      have hsound := h.stage
      rw [hstage] at hsound
      exact hsound
    cases hstep
    refine ⟨h.observed, h.watched, h.closes, nofun, fun _ => h.deadlineAt hcalled, ⟨rfl, hreleased⟩,
      fun _ session hsession => ?_, ?_, fun release hrelease => ?_⟩
    · rcases h.owed hcalled session hsession with hcloses | hnoticing | hclosing
      · exact .inl hcloses
      · exact .inr (.inl hnoticing)
      · rw [hstage] at hclosing
        exact hclosing.elim
    · rintro _ ⟨⟩
      rfl
    · have hlease := (h.leases release hrelease).2.1
      rw [hterminal] at hlease
      cases hlease
  · cases hstep

theorem Sound.cleanup {start now : τ} (h : Sound settings c) :
    Sound settings (c.cleanup settings start now) := by
  unfold Controller.cleanup
  split
  · rename_i hstage
    obtain ⟨hclose, hterminal, hleases⟩ := h.called hstage
    have hbegun : ∀ stage, stage = .awaitingSettled ∨ (∃ message, stage = .interrupted message) →
        Sound settings
          { c with deadlineAt := some (settings.deadlineAt start), stage := stage } := by
      intro stage hstage'
      have hfirst : stage ≠ .notCalled ∧ (∀ session, Closing session stage) ∧
          StageSound settings
            { c with deadlineAt := some (settings.deadlineAt start), stage := stage } stage := by
        rcases hstage' with rfl | ⟨message, rfl⟩
        · exact ⟨nofun, fun _ => trivial, trivial⟩
        · exact ⟨nofun, fun _ => trivial, trivial⟩
      refine ⟨h.observed, h.watched, h.closes, fun hnot => absurd hnot hfirst.1, fun _ => rfl,
        hfirst.2.2, fun _ session _ => .inr (.inr (hfirst.2.1 session)), fun receipt hreceipt => ?_,
        fun release hrelease => ?_⟩
      · rw [show c.terminal = some receipt from hreceipt] at hterminal
        cases hterminal
      · rw [show c.leaseReleases = [] from hleases] at hrelease
        cases hrelease
    simp only
    split
    · exact hbegun _ (.inr ⟨_, rfl⟩)
    · exact hbegun _ (.inl rfl)
  · exact h

/-- The number of waiting calls does not matter. -/
theorem Sound.leaseCalls (h : Sound settings c) (n : Nat) :
    Sound settings { c with leaseCalls := n } := by
  refine Sound.same h ⟨rfl, fun _ houtcome => houtcome, rfl, rfl, fun _ hproof => hproof, rfl, rfl⟩ rfl
    h.observed h.watched h.closes (fun hstage => (h.called hstage).1) h.owed rfl

theorem Sound.leaseResume {now : τ} (h : Sound settings c)
    (hstep : c.leaseResume settings now = some c') : Sound settings c' := by
  unfold Controller.leaseResume at hstep
  split at hstep
  · rename_i receipt n hstage hcalls
    have hrest := h.leaseCalls n
    have hcalled : c.stage ≠ .notCalled := by
      rw [hstage]
      nofun
    simp only at hstep
    split at hstep
    · rename_i hallowed
      obtain ⟨-, hterminal, -, hstopped⟩ := hallowed
      cases hstep
      refine ⟨hrest.observed, hrest.watched, hrest.closes, fun hnot => absurd hnot hcalled,
        hrest.deadlineAt, hrest.stage, hrest.owed, hrest.terminal, fun release hrelease => ?_⟩
      rcases List.mem_append.mp hrelease with hold | hnew
      · exact hrest.leases release hold
      · rw [List.mem_singleton.mp hnew]
        exact ⟨hterminal, hterminal, hrest.open hcalled hstopped⟩
    · cases hstep
      exact hrest
  · cases hstep

/-- What was not seen yet does not bear out a release. -/
theorem Sound.unseen (h : Sound settings c) {outcome : Except String BrowserSession}
    (houtcome : c.outcome = some outcome) (hobserved : c.observed = .notStarted) :
    ¬ (Unsubmitted c ∨ Proved settings c) := by
  rintro ((hwatched | ⟨reason, hfailed⟩) | ⟨session, proof, check, -, hclose, -⟩)
  · rw [h.watched hwatched] at houtcome
    cases houtcome
  · rw [hobserved] at hfailed
    cases hfailed
  · rcases h.closes with ⟨hnone, -⟩ | ⟨other, -, -, hother⟩
    · rw [hclose] at hnone
      cases hnone
    · rw [hobserved] at hother
      cases hother

/-- The first callback of `watch`. -/
theorem Sound.observe (h : Sound settings c) {outcome : Except String BrowserSession}
    (houtcome : c.outcome = some outcome) (hobserved : c.observed = .notStarted) :
    Sound settings { c with observed := .ofOutcome c.submitted outcome, noticing := true } := by
  have hunseen := h.unseen houtcome hobserved
  have hwatched : c.watched = true := by
    by_contra hnot
    rw [h.watched (Bool.eq_false_iff.mpr hnot)] at houtcome
    cases houtcome
  have hcloses : c.close = none ∧ c.closes = [] := by
    rcases h.closes with hnone | ⟨other, -, -, hother⟩
    · exact hnone
    · rw [hobserved] at hother
      cases hother
  refine ⟨?_, h.watched, .inl hcloses, h.called, h.deadlineAt, ?_, fun _ _ _ => .inr (.inl rfl),
    h.terminal, fun release hrelease => ?_⟩
  · cases outcome with
    | ok session => exact houtcome
    | error reason => exact houtcome
  · have hsound := h.stage
    show StageSound settings _ c.stage
    cases hstage : c.stage with
    | notCalled | awaitingSettled | interrupted _ | closeFailed _ => trivial
    | resumed settled =>
      rw [hstage] at hsound
      have hsettled : c.settled = some settled := hsound
      rw [Controller.settled, if_neg (not_not_intro hwatched), if_pos hobserved] at hsettled
      cases hsettled
    | awaitingClose session =>
      rw [hstage] at hsound
      rw [show c.observed = .acquired session from hsound] at hobserved
      cases hobserved
    | closed session proof =>
      rw [hstage] at hsound
      rw [hsound.1] at hobserved
      cases hobserved
    | returned receipt =>
      rw [hstage] at hsound
      exact fun hreceipt => absurd (hsound hreceipt) hunseen
    | done receipt =>
      rw [hstage] at hsound
      exact ⟨hsound.1, fun hreceipt => absurd (hsound.2 hreceipt) hunseen⟩
  · obtain ⟨-, hterminal, -⟩ := h.leases release hrelease
    have hsound := h.stage
    rw [h.terminal _ hterminal] at hsound
    exact absurd (hsound.2 rfl) hunseen

/-- The second one. -/
theorem Sound.notice {throws : Option String} (h : Sound settings c) :
    Sound settings (if c.stage = .notCalled then { c with noticing := false }
      else { c with noticing := false }.startCloseOf c.observed throws) := by
  split
  · rename_i hstage
    exact Sound.same h ⟨rfl, fun _ houtcome => houtcome, rfl, rfl, fun _ hproof => hproof, rfl, rfl⟩ rfl
      h.observed h.watched h.closes (fun hstage => (h.called hstage).1)
      (fun hcalled => absurd hstage hcalled) rfl
  · rename_i hcalled
    obtain ⟨hclosing, hcloses⟩ := Sound.startCloseOf throws h hcalled (fun session hsession => hsession)
    have hswap : { c with noticing := false }.startCloseOf c.observed throws =
        { c.startCloseOf c.observed throws with noticing := false } := by
      unfold Controller.startCloseOf Controller.startClose
      split
      · simp only
        split <;> rfl
      · rfl
    rw [hswap]
    refine Sound.same hclosing
      ⟨rfl, fun _ houtcome => houtcome, rfl, rfl, fun _ hproof => hproof, rfl, rfl⟩ rfl
      hclosing.observed hclosing.watched hclosing.closes (fun hstage => (hclosing.called hstage).1)
      (fun _ session hsession => .inl (hcloses session ?_)) rfl
    rw [Controller.startCloseOf_observed] at hsession
    exact hsession

theorem Sound.next {event : Event τ} (h : Sound settings c)
    (hstep : c.next settings event = some c') : Sound settings c' := by
  cases event with
  | watch =>
    simp only [Controller.next] at hstep
    split at hstep
    · rename_i hfresh
      cases hstep
      obtain ⟨hwatched, hstage⟩ := hfresh
      obtain ⟨-, -, hleases⟩ := h.called hstage
      refine ⟨h.observed, nofun, h.closes, h.called, h.deadlineAt, ?_,
        fun hcalled => absurd hstage hcalled, h.terminal, fun release hrelease => ?_⟩
      · show StageSound settings _ c.stage
        rw [hstage]
        trivial
      · rw [show c.leaseReleases = [] from hleases] at hrelease
        cases hrelease
    · cases hstep
  | beforeSubmit allowed =>
    cases hstep
    exact Sound.same h ⟨rfl, fun _ houtcome => houtcome, rfl, rfl, fun _ hproof => hproof, rfl, rfl⟩ rfl
      h.observed h.watched h.closes (fun hstage => (h.called hstage).1) h.owed rfl
  | launch outcome =>
    simp only [Controller.next] at hstep
    split at hstep
    · rename_i hpending
      obtain ⟨hwatched, hnone⟩ := hpending
      rw [Option.isNone_iff_eq_none] at hnone
      cases hstep
      refine Sound.same h ⟨rfl, fun session hsession => ?_, rfl, rfl, fun _ hproof => hproof, rfl, rfl⟩
        rfl ?_ (fun hnot => ?_) h.closes (fun hstage => (h.called hstage).1) h.owed rfl
      · rw [hnone] at hsession
        cases hsession
      · have hobserved := h.observed
        rw [hnone] at hobserved
        split at hobserved
        · trivial
        · cases hobserved
        · cases hobserved
      · rw [hwatched] at hnot
        cases hnot
    · cases hstep
  | observe =>
    simp only [Controller.next] at hstep
    split at hstep
    · rename_i outcome houtcome
      split at hstep
      · rename_i hobserved
        cases hstep
        exact h.observe houtcome hobserved
      · cases hstep
    · cases hstep
  | notice throws =>
    simp only [Controller.next] at hstep
    split at hstep
    · cases hstep
      exact h.notice
    · cases hstep
  | abort =>
    simp only [Controller.next] at hstep
    split at hstep
    · cases hstep
      exact Sound.same h ⟨rfl, fun _ houtcome => houtcome, rfl, rfl, fun _ hproof => hproof, rfl, rfl⟩ rfl
        h.observed h.watched h.closes (fun hstage => (h.called hstage).1) h.owed rfl
    · cases hstep
  | cleanup start now =>
    cases hstep
    exact h.cleanup
  | interrupt message =>
    simp only [Controller.next] at hstep
    split at hstep
    · rename_i hstage
      cases hstep
      have hterminal := h.untold (fun receipt => by rw [hstage]; nofun)
      have hcalled : c.stage ≠ .notCalled := by
        rw [hstage]
        nofun
      exact h.enter hterminal (h.deadlineAt hcalled) trivial nofun fun _ _ => .inr (.inr trivial)
    · rename_i session hstage
      cases hstep
      have hterminal := h.untold (fun receipt => by rw [hstage]; nofun)
      have hcalled : c.stage ≠ .notCalled := by
        rw [hstage]
        nofun
      refine h.enter hterminal (h.deadlineAt hcalled) trivial nofun fun other hother => ?_
      rcases h.owed hcalled other hother with hcloses | hnoticing | hclosing
      · exact .inl hcloses
      · exact .inr (.inl hnoticing)
      · rw [hstage] at hclosing
        exact hclosing.elim
    · cases hstep
  | resume now later throws evidence error => exact h.resume hstep
  | closeSettled result =>
    simp only [Controller.next] at hstep
    split at hstep
    · rename_i hclose
      cases hstep
      refine Sound.same h ⟨rfl, fun _ houtcome => houtcome, rfl, rfl, fun proof hproof => ?_, rfl, rfl⟩
        rfl h.observed h.watched ?_ (fun hstage => ?_) h.owed rfl
      · rw [hclose] at hproof
        cases hproof
      · rcases h.closes with ⟨hnone, -⟩ | ⟨session, -, hcloses⟩
        · rw [hclose] at hnone
          cases hnone
        · exact .inr ⟨session, Option.some_ne_none _, hcloses⟩
      · have hnone := (h.called hstage).1
        rw [hclose] at hnone
        cases hnone
    · cases hstep
  | leaseCleanup start now =>
    cases hstep
    exact h.cleanup.leaseCalls _
  | leaseResume now => exact h.leaseResume hstep

theorem sound_invariant : (controller settings).Invariant (Sound settings) where
  init := by
    intro c hc
    cases hc
    refine ⟨trivial, fun _ => rfl, .inl ⟨rfl, rfl⟩, fun _ => ⟨rfl, rfl, rfl⟩, fun hcalled => ?_, trivial,
      fun _ _ => nofun, nofun, fun _ hrelease => ?_⟩
    · exact absurd rfl hcalled
    · cases hrelease
  step := fun _ _ _ _ h hstep => h.next hstep

/-! ## Receipts are final -/

theorem receipt_startCloseOf (settled : Settlement) (throws : Option String) :
    (c.startCloseOf settled throws).receipt = c.receipt := by
  simp [Controller.receipt]

theorem receipt_cleanup {start now : τ} {receipt : Receipt} (h : c.receipt = some receipt) :
    (c.cleanup settings start now).receipt = some receipt := by
  unfold Controller.cleanup
  split
  · rename_i hstage
    rw [Controller.receipt, hstage] at h
    cases h
  · exact h

theorem receipt_resume {now later : τ} {throws evidence : Option String} {error : String}
    {receipt : Receipt} (h : c.receipt = some receipt)
    (hstep : c.resume settings now later throws evidence error = some c') :
    c'.receipt = some receipt := by
  unfold Controller.resume at hstep
  unfold Controller.receipt at h
  split at hstep <;> rename_i hstage <;> rw [hstage] at h <;> cases h
  · cases hstep
    rfl
  · cases hstep

theorem receipt_leaseResume {now : τ} {receipt : Receipt} (h : c.receipt = some receipt)
    (hstep : c.leaseResume settings now = some c') : c'.receipt = some receipt := by
  unfold Controller.leaseResume at hstep
  split at hstep
  · simp only at hstep
    split at hstep
    · cases hstep
      exact h
    · cases hstep
      exact h
  · cases hstep

theorem receipt_stable (receipt : Receipt) :
    (controller settings).Stable fun c => c.receipt = some receipt := by
  intro c event c' _ h hstep
  have hstep : c.next settings event = some c' := hstep
  cases event with
  | watch | launch _ | abort =>
    simp only [Controller.next] at hstep
    split at hstep
    · cases hstep
      exact h
    · cases hstep
  | beforeSubmit allowed =>
    cases hstep
    exact h
  | observe =>
    simp only [Controller.next] at hstep
    split at hstep
    · split at hstep
      · cases hstep
        exact h
      · cases hstep
    · cases hstep
  | notice throws =>
    simp only [Controller.next] at hstep
    split at hstep
    · cases hstep
      split
      · exact h
      · exact (receipt_startCloseOf _ _).trans h
    · cases hstep
  | cleanup start now =>
    cases hstep
    exact receipt_cleanup h
  | interrupt message =>
    simp only [Controller.next] at hstep
    unfold Controller.receipt at h
    split at hstep
    · rename_i hstage
      rw [hstage] at h
      cases h
    · rename_i hstage
      rw [hstage] at h
      cases h
    · cases hstep
  | resume now later throws evidence error => exact receipt_resume h hstep
  | closeSettled result =>
    simp only [Controller.next] at hstep
    split at hstep
    · cases hstep
      exact h
    · cases hstep
  | leaseCleanup start now =>
    cases hstep
    exact receipt_cleanup h
  | leaseResume now => exact receipt_leaseResume h hstep

/-! ## Callbacks run out -/

theorem callbacks_startCloseOf (settled : Settlement) (throws : Option String) :
    (c.startCloseOf settled throws).callbacks = c.callbacks := by
  unfold Controller.startCloseOf Controller.startClose
  split
  · split <;> rfl
  · rfl

theorem work_startCloseOf (settled : Settlement) (throws : Option String) :
    (c.startCloseOf settled throws).work = c.work := by
  rw [Controller.work, callbacks_startCloseOf, Controller.startCloseOf_stage, Controller.work]

theorem work_afterSettled {settled : Settlement} {now later : τ} {throws : Option String} :
    (c.afterSettled settings settled now later throws).work ≤ c.callbacks + 4 := by
  have hsame := callbacks_startCloseOf (c := c) settled throws
  unfold Controller.afterSettled
  split
  · show (c.startCloseOf settled throws).callbacks + 1 ≤ _
    omega
  · split
    · show c.callbacks + 1 ≤ _
      omega
    · show c.callbacks + 1 ≤ _
      omega
    · show c.callbacks + 1 ≤ _
      omega
    · rename_i session
      show Controller.work (if (c.startClose session throws).stopped settings later then _ else _) ≤ _
      split
      · show (c.startCloseOf (.acquired session) throws).callbacks + 2 ≤ _
        omega
      · exact Nat.le_of_eq (congrArg (· + 4) hsame)

theorem work_afterClose {session : BrowserSession} {proof : Option BrowserCloseProof}
    {now later : τ} {evidence : Option String} {error : String} :
    (c.afterClose settings session proof now later evidence error).work = c.callbacks + 1 := by
  unfold Controller.afterClose
  split
  · rfl
  · split
    · rfl
    · split
      · rfl
      · split
        · rfl
        · split <;> rfl

theorem work_resume {now later : τ} {throws evidence : Option String} {error : String}
    (hstep : c.resume settings now later throws evidence error = some c') : c'.work < c.work := by
  have hwork : ∀ stage, c.stage = stage → c.work = c.callbacks + stage.work := by
    rintro _ rfl
    rfl
  unfold Controller.resume at hstep
  split at hstep
  · cases hstep
  · rename_i hstage
    obtain ⟨settled, -, rfl⟩ := Option.map_eq_some_iff.mp hstep
    rw [hwork _ hstage]
    split
    · show c.callbacks + 2 < c.callbacks + 6
      omega
    · show c.callbacks + 5 < c.callbacks + 6
      omega
  · rename_i message hstage
    cases hstep
    rw [hwork _ hstage]
    have hsame := callbacks_startCloseOf (c := c) c.observed throws
    show (c.startCloseOf c.observed throws).callbacks + 1 < c.callbacks + 2
    omega
  · rename_i settled hstage
    cases hstep
    rw [hwork _ hstage]
    exact Nat.lt_succ_of_le work_afterSettled
  · rename_i session hstage
    rw [hwork _ hstage]
    split at hstep
    · cases hstep
      split
      · show c.callbacks + 2 < c.callbacks + 4
        omega
      · show c.callbacks + 3 < c.callbacks + 4
        omega
    · cases hstep
      show c.callbacks + 2 < c.callbacks + 4
      omega
    · cases hstep
  · rename_i session proof hstage
    cases hstep
    rw [hwork _ hstage, work_afterClose]
    show c.callbacks + 1 < c.callbacks + 3
    omega
  · rename_i message hstage
    cases hstep
    rw [hwork _ hstage]
    show c.callbacks + 1 < c.callbacks + 2
    omega
  · rename_i receipt hstage
    cases hstep
    rw [hwork _ hstage]
    exact Nat.lt_succ_self c.callbacks
  · cases hstep

theorem work_next {event : Event τ} (hjob : event.isJob = true)
    (hstep : c.next settings event = some c') : c'.work < c.work := by
  cases event with
  | watch | beforeSubmit _ | launch _ | abort | cleanup _ _ | interrupt _ | closeSettled _
  | leaseCleanup _ _ => cases hjob
  | observe =>
    simp only [Controller.next] at hstep
    split at hstep
    · split at hstep
      · rename_i outcome houtcome hobserved
        cases hstep
        have hseen : Settlement.ofOutcome c.submitted outcome ≠ .notStarted := by
          cases outcome <;> nofun
        simp only [Controller.work, Controller.callbacks, if_pos hobserved, if_neg hseen, if_true]
        split <;> omega
      · cases hstep
    · cases hstep
  | notice throws =>
    simp only [Controller.next] at hstep
    split at hstep
    · rename_i hnoticing
      cases hstep
      have hless : Controller.work { c with noticing := false } < c.work := by
        simp only [Controller.work, Controller.callbacks, hnoticing, if_true, Bool.false_eq_true,
          if_false]
        omega
      split
      · exact hless
      · rw [work_startCloseOf]
        exact hless
    · cases hstep
  | resume now later throws evidence error => exact work_resume hstep
  | leaseResume now =>
    simp only [Controller.next, Controller.leaseResume] at hstep
    split at hstep
    · rename_i receipt n hstage hcalls
      have hless : ∀ releases, Controller.work
          { c with leaseCalls := n, leaseReleases := releases } < c.work := by
        intro releases
        simp only [Controller.work, Controller.callbacks, hcalls]
        omega
      split at hstep
      · cases hstep
        exact hless _
      · cases hstep
        exact hless _
    · cases hstep

/-! ## Runs -/

/-- When nothing is due any more, the session that was delivered is closed. -/
theorem Sound.closed (h : Sound settings c) (hcalled : c.stage ≠ .notCalled)
    {session : BrowserSession} (houtcome : c.outcome = some (.ok session))
    (hquiet : Quiet settings c) : c.closes = [session] := by
  obtain ⟨now, -⟩ := Option.isSome_iff_exists.mp (h.deadlineAt hcalled)
  have hobserved : c.observed = .acquired session := by
    have hseen := h.observed
    cases hobserved : c.observed with
    | notStarted =>
      have hnone := hquiet .observe rfl
      simp [Controller.next, houtcome, hobserved] at hnone
    | acquired other =>
      rw [hobserved, houtcome] at hseen
      cases hseen
      rfl
    | failed submitted reason =>
      rw [hobserved, houtcome] at hseen
      cases hseen
  have hwatched : c.watched = true := by
    by_contra hnot
    rw [h.watched (Bool.eq_false_iff.mpr hnot)] at houtcome
    cases houtcome
  rcases h.owed hcalled session hobserved with hcloses | hnoticing | hclosing
  · exact hcloses
  · have hnone := hquiet (.notice none) rfl
    simp [Controller.next, hnoticing] at hnone
  · have hnone := hquiet (.resume now now none none "") rfl
    cases hstage : c.stage with
    | awaitingSettled =>
      simp [Controller.next, Controller.resume, hstage, Controller.settled, hwatched, hobserved] at hnone
    | interrupted message | resumed settled =>
      simp [Controller.next, Controller.resume, hstage] at hnone
    | notCalled | awaitingClose _ | closed _ _ | closeFailed _ | returned _ | done _ =>
      rw [hstage] at hclosing
      exact hclosing.elim

theorem reachable_clean (h : (controller settings).Reachable c) : Clean settings c := by
  have hsound := sound_invariant.reachable h
  refine ⟨?_, ?_, fun hcalled session houtcome => hsound.closed hcalled houtcome,
    fun event c' => work_next, ?_, ?_, ?_⟩
  · rcases hsound.closes with ⟨-, hnil⟩ | ⟨session, -, hcloses, -⟩
    · simp [hnil]
    · simp [hcloses]
  · intro hcloses hstage
    rcases hsound.closes with ⟨-, hnil⟩ | ⟨session, hclose, -⟩
    · exact hcloses hnil
    · exact hclose (hsound.called hstage).1
  · intro hreceipt
    have hstage := hsound.stage
    unfold Controller.receipt at hreceipt
    split at hreceipt
    · rename_i hreturned
      cases hreceipt
      rw [hreturned] at hstage
      exact hstage rfl
    · rename_i hdone
      cases hreceipt
      rw [hdone] at hstage
      exact hstage.2 rfl
    · cases hreceipt
  · intro release hrelease
    obtain ⟨hreleased, hterminal, hopen⟩ := hsound.leases release hrelease
    refine ⟨hreleased, ?_, hopen⟩
    rw [Controller.receipt, hsound.terminal _ hterminal]
  · intro receipt hreceipt events c' hexec
    exact (receipt_stable receipt).exec h hreceipt hexec

/-! ## A release, and one that is not earned -/

/-- A clock in whole milliseconds, and a second to clean up. -/
def inSeconds : Settings Nat where
  reached now deadlineAt := deadlineAt ≤ now
  deadlineAt now := now + 1000
  hasStop := true

def tab : BrowserSession := ⟨"playwright.local", "playwright-1"⟩

/-- The next stretch, in time and without an error. -/
def onTime (now : Nat) : Event Nat := .resume now now none none ""

/-- A session is delivered, closed with its proof, and the lease released. -/
def released : List (Event Nat) :=
  [.watch, .beforeSubmit true, .launch (.ok tab), .observe, .notice none, .leaseCleanup 0 0,
    onTime 1, onTime 2, .closeSettled (.ok (some ⟨"browserSessionClosed", tab.hostId, tab.sessionId⟩)),
    onTime 3, onTime 4, onTime 5, .leaseResume 6]

/-- The backend submits after its launch has failed. -/
def submittedLate : List (Event Nat) :=
  [.watch, .launch (.error "Loading took too long."), .observe, .notice none, .beforeSubmit true,
    .cleanup 0 0, onTime 1, onTime 2]

theorem released_clean : ∃ c : Controller Nat, (controller inSeconds).Reachable c ∧
    c.receipt = some .released ∧ c.leaseReleases.length = 1 ∧ Clean inSeconds c := by
  have hrun : (System.replay (Controller.next inSeconds) .opened released).any (fun c =>
      c.receipt = some .released && c.leaseReleases.length = 1) = true := by
    decide
  obtain ⟨c, hc, hcheck⟩ := (Option.any_eq_true _ _).mp hrun
  obtain ⟨hreceipt, hleases⟩ := Bool.and_eq_true_iff.mp hcheck
  have hreachable : (controller inSeconds).Reachable c := System.reachable_of_replay hc
  exact ⟨c, hreachable, of_decide_eq_true hreceipt, of_decide_eq_true hleases,
    reachable_clean hreachable⟩

theorem submittedLate_released : ¬ ∀ c : Controller Nat, (controller inSeconds).Reachable c →
    c.receipt = some .released → c.submitted = false ∨ Proved inSeconds c := by
  intro hclaim
  have hrun : (System.replay (Controller.next inSeconds) .opened submittedLate).any (fun c =>
      c.receipt = some .released && c.submitted && c.close.isNone) = true := by
    decide
  obtain ⟨c, hc, hcheck⟩ := (Option.any_eq_true _ _).mp hrun
  obtain ⟨hreceipt, hclose⟩ := Bool.and_eq_true_iff.mp hcheck
  obtain ⟨hreceipt, hsubmitted⟩ := Bool.and_eq_true_iff.mp hreceipt
  rcases hclaim c (System.reachable_of_replay hc) (of_decide_eq_true hreceipt) with hnot | hproved
  · rw [hnot] at hsubmitted
    cases hsubmitted
  · obtain ⟨_, _, _, -, hproof, -⟩ := hproved
    rw [hproof] at hclose
    cases hclose

end SurfaceLoom.Test.BrowserController
