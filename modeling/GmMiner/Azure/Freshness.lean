import GmMiner.Azure.Periodic
import Mathlib.Order.Bounds.Basic

/-!
No account is served on a stale deployment binding.

A deadline moves only with a check that passed, and no turn of the binding loop ends after its
deadline. So the loop of an account is there only while the latest check that passed is fresh, and
as the end of any loop ends the process, so is the process.
-/

namespace GmMiner.Azure

open GmMiner.Lib

/-- One account of the process, when boot verified its binding, and what its loops will find. -/
structure Account where
  config : AzureVerifyConfig
  verifiedAt : Instant
  checks : Nat → Check
  audits : Nat → Check

section Turns

variable (timers : Timers) (settings : PeriodicAzureVerifySettings)

namespace BindingLoop

variable {timers} in
/-- A turn starts when it is due, unless the bindings go stale before. -/
theorem wait_eq_some {since started : Instant} {loop : BindingLoop}
    (waited : loop.wait timers since = some started) :
    since < loop.staleDeadline ∧ started = max since loop.due ∧ started ≤ loop.staleDeadline := by
  unfold wait at waited
  split at waited
  · cases waited
  · rename_i fresh
    split at waited
    · rename_i inTime
      cases waited
      exact ⟨Nat.not_le.mp fresh, rfl, Timers.le_of_inTime inTime⟩
    · cases waited

/-- A check is over by the deadline, and not before it began. -/
theorem poll_bounds {loop : BindingLoop} {started : Instant} (early : started ≤ loop.staleDeadline)
    (check : Check) :
    started ≤ (loop.poll timers settings started check).1 ∧
      (loop.poll timers settings started check).1 ≤ loop.staleDeadline := by
  unfold poll
  dsimp only
  have later : started ≤ if timers.inTime (started + settings.cycleTimeout) (started + check.duration)
      then started + check.duration else started + settings.cycleTimeout := by
    split
    · exact Nat.le_add_right _ _
    · exact Nat.le_add_right _ _
  generalize (if timers.inTime (started + settings.cycleTimeout) (started + check.duration)
    then started + check.duration else started + settings.cycleTimeout) = ready at later ⊢
  split
  · rename_i inTime
    have before := Timers.le_of_inTime inTime
    split
    · exact ⟨later, before⟩
    · split
      · exact ⟨later, before⟩
      · exact ⟨later, before⟩
  · exact ⟨le_max_left _ _, max_le early le_rfl⟩

/-- The two ways a turn ends. A turn that does not end the loop is over by the deadline, and moves the
deadline only with a check that passed. -/
theorem turn_cases (since : Instant) (loop : BindingLoop) (check : Check) :
    (∃ at_ reason, loop.turn timers settings since check = .ended at_ ⟨reason, loop.bindingVerifiedAt⟩ ∧
      since ≤ at_ ∧ at_ ≤ max since loop.staleDeadline ∧
      ∀ finished, loop.verdict timers settings since check ≠ some (finished, .ok ())) ∨
    ∃ finished result next, loop.turn timers settings since check = .running finished next ∧
      loop.verdict timers settings since check = some (finished, result) ∧
      since ≤ finished ∧ loop.due ≤ finished ∧ finished ≤ loop.staleDeadline ∧
      (timers.Lawful settings.deploymentInterval →
        loop.due + settings.deploymentInterval ≤ next.due) ∧
      (result = .ok () ∧ next.bindingVerifiedAt = finished ∧
          next.staleDeadline = finished + settings.cycleTimeout ∨
        result ≠ .ok () ∧ next.bindingVerifiedAt = loop.bindingVerifiedAt ∧
          next.staleDeadline = loop.staleDeadline) := by
  -- No tick before the binding is stale: the loop ends there, without a check.
  cases waited : loop.wait timers since with
  | none =>
      left
      refine ⟨max since loop.staleDeadline, staleFailureMessage, ?_, le_max_left _ _, le_rfl, ?_⟩
      · rw [turn, waited]
      · intro finished
        rw [verdict, waited]
        exact nofun
  | some started =>
      obtain ⟨fresh, start, early⟩ := wait_eq_some waited
      have bounds := poll_bounds timers settings early check
      have ran : loop.verdict timers settings since check =
          some (loop.poll timers settings started check) := by
        rw [verdict, waited, Option.map_some]
      have first : since ≤ started ∧ loop.due ≤ started := by
        rw [start]
        exact ⟨le_max_left _ _, le_max_right _ _⟩
      rw [ran, turn, waited]
      dsimp only
      cases polled : loop.poll timers settings started check
      rename_i finished result
      rw [polled] at bounds
      dsimp only at bounds ⊢
      -- A check was made; only the state it is recorded in decides whether the loop goes on.
      cases recorded : recordResult loop.target result .deploymentBinding
          settings.transientFailureLimit with
      | mk stops target =>
          cases stops with
          | some reason =>
              left
              refine ⟨finished, reason, rfl, first.1.trans bounds.1,
                bounds.2.trans (le_max_right _ _), ?_⟩
              rintro _ ⟨⟩
              cases recorded
          | none =>
              right
              have apart : timers.Lawful settings.deploymentInterval →
                  loop.due + settings.deploymentInterval ≤ timers.nextTick loop.due started :=
                fun lawful => lawful.apart _ _ first.2
              cases result with
              | ok =>
                  exact ⟨finished, _, _, rfl, rfl, first.1.trans bounds.1, first.2.trans bounds.1,
                    bounds.2, apart, .inl ⟨rfl, rfl, rfl⟩⟩
              | error error =>
                  exact ⟨finished, _, _, rfl, rfl, first.1.trans bounds.1, first.2.trans bounds.1,
                    bounds.2, apart, .inr ⟨nofun, rfl, rfl⟩⟩

end BindingLoop

end Turns

/-- What the watch of an account's binding shows. -/
def shown : Stage BindingLoop BindingEnd → Instant
  | .running _ loop => loop.bindingVerifiedAt
  | .ended _ result => result.bindingVerifiedAt

section Runs

variable (timers : Timers) (settings : PeriodicAzureVerifySettings) (start : Instant)

namespace Account

/-- The stages of the account's binding loop in a process that starts it at some instant. -/
def bindingStages (account : Account) : Nat → Stage BindingLoop BindingEnd :=
  Stage.run (fun since loop => loop.turn timers settings since)
    (.running start (.new settings account.config account.verifiedAt)) account.checks

def captureStages (account : Account) : Nat → Stage CaptureLoop String :=
  Stage.run (fun since loop => loop.turn timers settings since)
    (.running start (.new timers account.config start)) account.audits

/-- A check of the account's binding that passed, and when it did. -/
def Passed (account : Account) (n : Nat) (finished : Instant) : Prop :=
  ∃ since loop, account.bindingStages timers settings start n = .running since loop ∧
    loop.verdict timers settings since (account.checks n) = some (finished, .ok ())

/-- The latest instant, up to a given one, at which the account's binding was verified. -/
def LastVerified (account : Account) (t verified : Instant) : Prop :=
  IsGreatest {e | (e = account.verifiedAt ∨ ∃ n, account.Passed timers settings start n e) ∧ e ≤ t}
    verified

end Account

/-- What holds of every stage of a binding loop: the watch shows the latest check that passed, the
deadline is set by it, and every turn has waited for one more tick. -/
structure Account.Sound (account : Account) (n : Nat) (stage : Stage BindingLoop BindingEnd) :
    Prop where
  latest : IsGreatest {e | e = account.verifiedAt ∨
    ∃ m < n, account.Passed timers settings start m e} (shown stage)
  past : shown stage ≤ stage.instant
  deadline : ∀ since loop, stage = .running since loop →
    loop.staleDeadline = loop.bindingVerifiedAt + settings.cycleTimeout
  ticks : ∀ since loop, stage = .running since loop →
    n * settings.deploymentInterval ≤ since ∧ (n + 1) * settings.deploymentInterval ≤ loop.due

variable {timers settings start} {account : Account}

/-- The loop's stages: each check begins after the one before it ended, and before
the bindings are stale. -/
theorem Account.sound (lawful : timers.Lawful settings.deploymentInterval)
    (booted : account.verifiedAt ≤ start) (n : Nat) :
    account.Sound timers settings start n
      (account.bindingStages timers settings start n) := by
  apply Stage.run_invariant
  · refine ⟨⟨.inl rfl, ?_⟩, booted, ?_, ?_⟩
    · rintro e (rfl | ⟨m, before, -⟩)
      · exact le_rfl
      · omega
    · rintro _ _ ⟨⟩
      rfl
    · rintro _ _ ⟨⟩
      dsimp only [BindingLoop.new]
      omega
  · intro n since loop running sound
    have due := sound.ticks since loop rfl
    have passed : ∀ e, (e = account.verifiedAt ∨
        ∃ m < n + 1, account.Passed timers settings start m e) →
        (e = account.verifiedAt ∨ ∃ m < n, account.Passed timers settings start m e) ∨
          loop.verdict timers settings since (account.checks n) = some (e, .ok ()) := by
      rintro e (boot | ⟨m, before, verified⟩)
      · exact .inl (.inl boot)
      · rcases Nat.lt_succ_iff_lt_or_eq.mp before with earlier | rfl
        · exact .inl (.inr ⟨m, earlier, verified⟩)
        · obtain ⟨since', loop', running', verdict⟩ := verified
          cases running.symm.trans running'
          exact .inr verdict
    have still : shown (.running since loop) ∈ {e | e = account.verifiedAt ∨
        ∃ m < n + 1, account.Passed timers settings start m e} := by
      rcases sound.latest.1 with boot | ⟨m, before, verified⟩
      · exact .inl boot
      · exact .inr ⟨m, Nat.lt_succ_of_lt before, verified⟩
    -- One turn: it ends the loop, or moves what is shown exactly where its check passed.
    rcases loop.turn_cases timers settings since (account.checks n) with
      ⟨at_, reason, ended, later, -, failed⟩ |
      ⟨finished, result, next, ran, verdict, later, waited, -, apart, kind⟩
    · rw [ended]
      refine ⟨⟨still, ?_⟩, sound.past.trans later, nofun, nofun⟩
      intro e verified
      rcases passed e verified with known | now
      · exact sound.latest.2 known
      · exact absurd now (failed e)
    · rw [ran]
      have step := apart lawful
      have ticks : (n + 1) * settings.deploymentInterval ≤ finished ∧
          (n + 1 + 1) * settings.deploymentInterval ≤ next.due := by
        have split : (n + 1 + 1) * settings.deploymentInterval =
            (n + 1) * settings.deploymentInterval + settings.deploymentInterval :=
          Nat.succ_mul _ _
        rw [split]
        exact ⟨due.2.trans waited, (Nat.add_le_add_right due.2 _).trans step⟩
      rcases kind with ⟨rfl, moved, deadline⟩ | ⟨failed, kept, deadline⟩
      · refine ⟨⟨?_, ?_⟩, ?_, ?_, ?_⟩
        · exact .inr ⟨n, Nat.lt_succ_self n, since, loop, running, by rw [verdict, shown, moved]⟩
        · intro e verified
          rw [shown, moved]
          rcases passed e verified with known | now
          · exact (sound.latest.2 known).trans (sound.past.trans later)
          · cases verdict.symm.trans now
            exact le_rfl
        · rw [shown, moved]
          exact le_rfl
        · rintro _ _ ⟨⟩
          rw [deadline, moved]
        · rintro _ _ ⟨⟩
          exact ticks
      · refine ⟨⟨?_, ?_⟩, ?_, ?_, ?_⟩
        · rw [shown, kept]
          exact still
        · intro e verified
          rw [shown, kept]
          rcases passed e verified with known | now
          · exact sound.latest.2 known
          · cases verdict.symm.trans now
            exact absurd rfl failed
        · rw [shown, kept]
          exact sound.past.trans later
        · rintro _ _ ⟨⟩
          rw [deadline, kept]
          exact sound.deadline since loop rfl
        · rintro _ _ ⟨⟩
          exact ticks
  · intro n at_ result ended sound
    refine ⟨⟨?_, ?_⟩, sound.past, nofun, nofun⟩
    · rcases sound.latest.1 with boot | ⟨m, before, verified⟩
      · exact .inl boot
      · exact .inr ⟨m, Nat.lt_succ_of_lt before, verified⟩
    · rintro e (boot | ⟨m, before, verified⟩)
      · exact sound.latest.2 (.inl boot)
      · rcases Nat.lt_succ_iff_lt_or_eq.mp before with earlier | rfl
        · exact sound.latest.2 (.inr ⟨m, earlier, verified⟩)
        · obtain ⟨since, loop, running, -⟩ := verified
          cases ended.symm.trans running

/-- Time never goes back in the loop. -/
theorem Account.forward (account : Account) :
    Monotone fun n => (account.bindingStages timers settings start n).instant := by
  apply Stage.run_monotone
  intro n since loop running
  rcases loop.turn_cases timers settings since (account.checks n) with
    ⟨at_, reason, ended, later, -⟩ | ⟨finished, result, next, ran, -, later, -⟩
  · rw [ended]
    exact later
  · rw [ran]
    exact later

theorem Account.stays (account : Account) (n m : Nat) (later : n ≤ m)
    (ended : (account.bindingStages timers settings start n).isEnded = true) :
    account.bindingStages timers settings start m = account.bindingStages timers settings start n := by
  cases stage : account.bindingStages timers settings start n with
  | running since loop =>
      rw [stage] at ended
      cases ended
  | ended at_ result => exact Stage.run_ended stage later

/-- The turn of a check that passed ends when the check does. -/
theorem Account.Passed.instant {n : Nat} {finished : Instant}
    (passed : account.Passed timers settings start n finished) :
    (account.bindingStages timers settings start n).isEnded = false ∧
      (account.bindingStages timers settings start (n + 1)).instant = finished := by
  obtain ⟨since, loop, running, verdict⟩ := passed
  refine ⟨by rw [running]; rfl, ?_⟩
  have next : account.bindingStages timers settings start (n + 1) =
      loop.turn timers settings since (account.checks n) := Stage.run_running running
  rcases loop.turn_cases timers settings since (account.checks n) with
    ⟨at_, reason, -, -, -, failed⟩ | ⟨finished', result, state, ran, verdict', -⟩
  · exact absurd verdict (failed finished)
  · cases verdict.symm.trans verdict'
    rw [next, ran]
    rfl

section Lawful

variable (lawful : timers.Lawful settings.deploymentInterval) (booted : account.verifiedAt ≤ start)

include lawful booted

/-- The watch of an account shows its latest check that passed. -/
theorem Account.shown_current {t : Instant} {stage : Stage BindingLoop BindingEnd}
    (current : Stage.Current (account.bindingStages timers settings start) t stage) :
    account.LastVerified timers settings start t (shown stage) := by
  obtain ⟨n, rfl, began, lasts⟩ := current
  have sound := account.sound lawful booted n
  refine ⟨⟨?_, sound.past.trans began⟩, ?_⟩
  · rcases sound.latest.1 with boot | ⟨m, -, passed⟩
    · exact .inl boot
    · exact .inr ⟨m, passed⟩
  · rintro e ⟨boot | ⟨m, passed⟩, before⟩
    · exact sound.latest.2 (.inl boot)
    · refine sound.latest.2 (.inr ⟨m, Nat.not_le.mp fun later => ?_, passed⟩)
      -- A check from this stage's turn on is over only when the stage is.
      rcases lasts with ended | next
      · have running := passed.instant.1
        rw [account.stays n m later ended, ended] at running
        cases running
      · have ended : (account.bindingStages timers settings start (n + 1)).instant ≤
            (account.bindingStages timers settings start (m + 1)).instant :=
          account.forward (Nat.succ_le_succ later)
        rw [passed.instant.2] at ended
        exact absurd (next.trans_le (ended.trans before)) (lt_irrefl _)

/-- The loop passes every instant, or ends before it. -/
theorem Account.progress (positive : 0 < settings.deploymentInterval) (t : Instant) :
    ∃ n, (account.bindingStages timers settings start n).isEnded = true ∨
      t < (account.bindingStages timers settings start n).instant := by
  refine ⟨t + 1, ?_⟩
  have sound := account.sound lawful booted (t + 1)
  cases stage : account.bindingStages timers settings start (t + 1) with
  | running since loop =>
      right
      have ticks := (sound.ticks since loop stage).1
      have small := Nat.le_mul_of_pos_right (t + 1) positive
      exact Nat.lt_of_lt_of_le (Nat.lt_succ_self t) (small.trans ticks)
  | ended at_ result => exact .inl rfl

/-- A turn is over by the deadline that the check shown sets. -/
theorem Account.busy_before {t since : Instant} {loop : BindingLoop}
    (current : Stage.Current (account.bindingStages timers settings start) t (.running since loop)) :
    t < loop.bindingVerifiedAt + settings.cycleTimeout := by
  obtain ⟨n, running, began, lasts⟩ := current
  have sound := account.sound lawful booted n
  have deadline := sound.deadline since loop running
  have next : account.bindingStages timers settings start (n + 1) =
      loop.turn timers settings since (account.checks n) := Stage.run_running running
  have before : t < (loop.turn timers settings since (account.checks n)).instant := by
    rw [← next]
    exact lasts.resolve_left nofun
  rw [← deadline]
  rcases loop.turn_cases timers settings since (account.checks n) with
    ⟨at_, reason, ended, -, early, -⟩ | ⟨finished, result, state, ran, -, -, -, early, -⟩
  · rw [ended] at before
    rcases le_max_iff.mp early with early | early
    · exact absurd (before.trans_le (early.trans began)) (lt_irrefl _)
    · exact before.trans_le early
  · rw [ran] at before
    exact before.trans_le early

/-- Once the check that the watch shows is stale, the loop is over. -/
theorem Account.ended_of_stale {t : Instant} {stage : Stage BindingLoop BindingEnd}
    (current : Stage.Current (account.bindingStages timers settings start) t stage)
    (stale : shown stage + settings.cycleTimeout ≤ t) :
    Stage.EndedBy (account.bindingStages timers settings start) t := by
  cases stage with
  | running since loop =>
      exact absurd (account.busy_before lawful booted current) (Nat.not_lt.mpr stale)
  | ended at_ result => exact ⟨at_, result, current⟩

end Lawful

/-- The binding loop of an account waits or polls only while less than two intervals have passed since
the latest check that passed was completed, and has ended with its reason once they have. -/
theorem binding_loop_ends_when_stale (lawful : timers.Lawful settings.deploymentInterval)
    (positive : 0 < settings.deploymentInterval) (booted : account.verifiedAt ≤ start)
    {t : Instant} (started : start ≤ t) :
    ∃ verified, account.LastVerified timers settings start t verified ∧
      (Stage.Busy (account.bindingStages timers settings start) t →
        t < verified + 2 * settings.deploymentInterval) ∧
      (verified + 2 * settings.deploymentInterval ≤ t →
        Stage.EndedBy (account.bindingStages timers settings start) t) := by
  obtain ⟨stage, current⟩ : ∃ stage,
      Stage.Current (account.bindingStages timers settings start) t stage :=
    Stage.exists_current started (account.progress lawful booted positive t)
  have window : settings.cycleTimeout = 2 * settings.deploymentInterval := Nat.mul_comm _ _
  refine ⟨shown stage, account.shown_current lawful booted current, ?_, fun stale => ?_⟩
  · rintro ⟨since, loop, busy⟩
    cases Stage.Current.unique account.forward account.stays current busy
    rw [← window]
    exact account.busy_before lawful booted busy
  · rw [← window] at stale
    exact account.ended_of_stale lawful booted current stale

/-- `AzureBindingReadiness`: what the watches of the accounts show, and for how long that counts. -/
structure AzureBindingReadiness where
  targets : List Instant
  window : Duration
  deriving DecidableEq, Repr

/-- `is_fresh`. -/
def AzureBindingReadiness.isFresh (readiness : AzureBindingReadiness) (now : Instant) : Bool :=
  readiness.targets.all fun verifiedAt => now < verifiedAt + readiness.window

/-- The first loop of an account that ends sends its reason, and that ends the process. -/
def Account.FailedBy (timers : Timers) (settings : PeriodicAzureVerifySettings) (start : Instant)
    (account : Account) (t : Instant) : Prop :=
  Stage.EndedBy (account.bindingStages timers settings start) t ∨
    Stage.EndedBy (account.captureStages timers settings start) t

/-- The process is ready exactly while the latest passed check of each account is less than two
intervals old; and it is, as long as no loop of any account has ended. -/
theorem ready_until_a_loop_ends {accounts : List Account} {watched : Account → Instant}
    (lawful : timers.Lawful settings.deploymentInterval)
    (booted : ∀ account ∈ accounts, account.verifiedAt ≤ start) {t : Instant}
    (watches : ∀ account ∈ accounts, ∃ stage,
      Stage.Current (account.bindingStages timers settings start) t stage ∧
        watched account = shown stage) :
    ((AzureBindingReadiness.mk (accounts.map watched) settings.cycleTimeout).isFresh t = true ↔
      ∀ account ∈ accounts, ∀ verified, account.LastVerified timers settings start t verified →
        t < verified + 2 * settings.deploymentInterval) ∧
    ((∀ account ∈ accounts, ¬ account.FailedBy timers settings start t) →
      (AzureBindingReadiness.mk (accounts.map watched) settings.cycleTimeout).isFresh t = true) := by
  have window : settings.cycleTimeout = 2 * settings.deploymentInterval := Nat.mul_comm _ _
  have fresh : (AzureBindingReadiness.mk (accounts.map watched) settings.cycleTimeout).isFresh t =
      true ↔ ∀ account ∈ accounts, t < watched account + 2 * settings.deploymentInterval := by
    simp [AzureBindingReadiness.isFresh, window]
  have last : ∀ account ∈ accounts,
      account.LastVerified timers settings start t (watched account) := by
    intro account mem
    obtain ⟨stage, current, shows⟩ := watches account mem
    rw [shows]
    exact account.shown_current lawful (booted account mem) current
  rw [fresh]
  constructor
  · constructor
    · intro early account mem verified latest
      rw [latest.unique (last account mem)]
      exact early account mem
    · intro early account mem
      exact early account mem _ (last account mem)
  · intro going account mem
    obtain ⟨stage, current, shows⟩ := watches account mem
    refine Nat.not_le.mp fun stale => going account mem (.inl ?_)
    rw [shows, ← window] at stale
    exact account.ended_of_stale lawful (booted account mem) current stale

end Runs

/-- An interval that waits a whole period after each tick, as `Delay` does for a late one. -/
def delayed (period : Duration) : Timers := ⟨fun _ taken => taken + period, true⟩

theorem delayed_lawful (period : Duration) : (delayed period).Lawful period :=
  ⟨fun _ _ later => Nat.add_le_add_right later period⟩

/-- An account whose first check passes and whose second one hangs, polled every 10. -/
def hangingAccount : Account where
  config := ⟨.openAi, "https://acct.openai.azure.com", "t", "s", "g", "c", "k"⟩
  verifiedAt := 0
  checks := fun n => if n = 0 then ⟨.ok (), 3⟩ else ⟨.ok (), 1000⟩
  audits := fun _ => ⟨.ok (), 1⟩

def everyTen : PeriodicAzureVerifySettings := ⟨100, 10, 3⟩

/-- The account's loop checks twice and ends, stale, at the third. -/
theorem hangingAccount_stages :
    hangingAccount.bindingStages (delayed 10) everyTen 2 0 =
      .running 2 ⟨.new hangingAccount.config, 10, 20, 0⟩ ∧
    hangingAccount.bindingStages (delayed 10) everyTen 2 1 =
      .running 13 ⟨.new hangingAccount.config, 20, 33, 13⟩ ∧
    hangingAccount.bindingStages (delayed 10) everyTen 2 2 =
      .ended 33 ⟨"definitive Azure OpenAI deployment binding verification failure: " ++
        staleFailureMessage, 13⟩ :=
  ⟨rfl, rfl, rfl⟩

/-- The account that hangs is stale, and has failed, at 33. -/
theorem binding_loop_ends_when_stale_hanging :
    ∃ verified, hangingAccount.LastVerified (delayed 10) everyTen 2 33 verified ∧
      (Stage.Busy (hangingAccount.bindingStages (delayed 10) everyTen 2) 33 →
        33 < verified + 2 * everyTen.deploymentInterval) ∧
      (verified + 2 * everyTen.deploymentInterval ≤ 33 →
        Stage.EndedBy (hangingAccount.bindingStages (delayed 10) everyTen 2) 33) :=
  binding_loop_ends_when_stale (delayed_lawful 10) (by decide) (Nat.zero_le 2) (by decide)

/-- The account is ready until its loop ends. -/
theorem ready_until_a_loop_ends_hanging :
    ((AzureBindingReadiness.mk ([hangingAccount].map fun _ => 13) everyTen.cycleTimeout).isFresh 32 =
        true ↔
      ∀ account ∈ [hangingAccount], ∀ verified,
        account.LastVerified (delayed 10) everyTen 2 32 verified →
          32 < verified + 2 * everyTen.deploymentInterval) ∧
    ((∀ account ∈ [hangingAccount], ¬ account.FailedBy (delayed 10) everyTen 2 32) →
      (AzureBindingReadiness.mk ([hangingAccount].map fun _ => 13) everyTen.cycleTimeout).isFresh 32 =
        true) := by
  refine ready_until_a_loop_ends (delayed_lawful 10) ?_ ?_
  · intro account mem
    rw [List.mem_singleton.mp mem]
    exact Nat.zero_le 2
  · intro account mem
    rw [List.mem_singleton.mp mem]
    exact ⟨_, ⟨1, hangingAccount_stages.2.1, by decide, .inr (by
      rw [hangingAccount_stages.2.2]
      decide)⟩, rfl⟩

/-! ### The audits between the checks -/

section Audits

variable {timers : Timers} {settings : PeriodicAzureVerifySettings} {start : Instant}

/-- What the first audits of an account find. -/
def Account.audited (account : Account) (n : Nat) : List CheckResult :=
  (List.range n).map fun m => (account.audits m).result

/-- An audit whose result ends the loop. -/
def Account.Stops (limit : UInt32) (account : Account) (m : Nat) : Prop :=
  IsReason limit (account.audited m) (account.audits m).result

theorem resultsOf_same (operation : VerificationOperation) (results : List CheckResult) :
    resultsOf operation (results.map fun result => (operation, result)) = results := by
  induction results with
  | nil => rfl
  | cons result rest ih => simpa [resultsOf] using ih

/-- The capture audits of an account go on until the first one that fails definitively, or that ends as
many transient failures in a row as are tolerated. -/
theorem capture_loop_ends_at_the_limit (account : Account) (n : Nat) :
    (account.captureStages timers settings start n).isEnded = true ↔
      ∃ m < n, account.Stops settings.transientFailureLimit m := by
  -- While it runs, the state is the record of all the audits so far, and none of them stopped it.
  have invariant : (∀ since loop, account.captureStages timers settings start n =
      .running since loop → loop.target = recordAll settings.transientFailureLimit
          (.new account.config) ((account.audited n).map fun result => (.captureAudit, result)) ∧
        ∀ m < n, ¬ account.Stops settings.transientFailureLimit m) ∧
      ∀ at_ reason, account.captureStages timers settings start n = .ended at_ reason →
        ∃ m < n, account.Stops settings.transientFailureLimit m := by
    induction n with
    | zero => exact ⟨by rintro _ _ ⟨⟩; exact ⟨rfl, by omega⟩, nofun⟩
    | succ n ih =>
        cases stage : account.captureStages timers settings start n with
        | ended at_ reason =>
            have stays : account.captureStages timers settings start (n + 1) = .ended at_ reason :=
              Stage.run_ended stage (Nat.le_succ n)
            rw [stays]
            obtain ⟨m, before, stops⟩ := ih.2 at_ reason stage
            exact ⟨nofun, fun _ _ _ => ⟨m, Nat.lt_succ_of_lt before, stops⟩⟩
        | running since loop =>
            obtain ⟨target, going⟩ := ih.1 since loop stage
            have next : account.captureStages timers settings start (n + 1) =
                loop.turn timers settings since (account.audits n) := Stage.run_running stage
            have more : account.audited (n + 1) =
                account.audited n ++ [(account.audits n).result] := by
              simp [Account.audited, List.range_succ]
            have stops : (recordResult loop.target (account.audits n).result .captureAudit
                settings.transientFailureLimit).1.isSome = true ↔
                account.Stops settings.transientFailureLimit n := by
              rw [target, stops_iff_of_history, resultsOf_same, Account.Stops, IsReason]
              rw [resultsOf_same]
              intro result mem
              obtain ⟨m, before, rfl⟩ := List.mem_map.mp mem
              have quiet := going m (List.mem_range.mp before)
              rw [Account.Stops, IsReason, not_or, Bool.not_eq_true] at quiet
              exact quiet.1
            rw [next, CaptureLoop.turn]
            cases recorded : recordResult loop.target (account.audits n).result .captureAudit
                settings.transientFailureLimit with
            | mk reason state =>
                rw [recorded] at stops
                cases reason with
                | some reason =>
                    exact ⟨nofun, fun _ _ _ => ⟨n, Nat.lt_succ_self n, stops.mp rfl⟩⟩
                | none =>
                    refine ⟨?_, nofun⟩
                    rintro _ _ ⟨⟩
                    refine ⟨?_, fun m before => ?_⟩
                    · rw [more, List.map_append, List.map_singleton, recordAll_concat, ← target,
                        recorded]
                    · rcases Nat.lt_succ_iff_lt_or_eq.mp before with earlier | rfl
                      · exact going m earlier
                      · exact fun stopped => absurd (stops.mpr stopped) nofun
  cases stage : account.captureStages timers settings start n with
  | running since loop =>
      have going := (invariant.1 since loop stage).2
      constructor
      · exact nofun
      · rintro ⟨m, before, stops⟩
        exact absurd stops (going m before)
  | ended at_ reason => exact iff_of_true rfl (invariant.2 at_ reason stage)

end Audits

/-! ### Bindings that expire before the loops start -/

section Refresh

variable (timers : Timers) (window : Duration)

/-- `refresh_expired_bindings` from some instant on, with the checks still to come: `none` if they are
more than the rounds given. -/
def refreshExpiredBindings (deadline : Instant) : Nat → Instant → List Instant → (Nat → Check) →
    Option (Instant × Except AnyError (List Instant))
  | 0, _, _, _ => none
  | rounds + 1, now, targets, checks =>
      match targets.findIdx? fun verifiedAt => verifiedAt + window ≤ now with
      | none => some (now, .ok targets)
      | some i =>
          let ready := now + (checks 0).duration
          if timers.inTime deadline ready then
            match (checks 0).result with
            | .ok () =>
                refreshExpiredBindings deadline rounds ready (targets.set i ready)
                  fun n => checks (n + 1)
            | .error error => some (ready, .error error)
          else some (max now deadline, .error (.msg "boot deployment binding refresh timed out"))

/-- The targets it checks, by their positions, in the order it does. -/
def refreshChecks (deadline : Instant) : Nat → Instant → List Instant → (Nat → Check) → List Nat
  | 0, _, _, _ => []
  | rounds + 1, now, targets, checks =>
      match targets.findIdx? fun verifiedAt => verifiedAt + window ≤ now with
      | none => []
      | some i =>
          let ready := now + (checks 0).duration
          i :: if timers.inTime deadline ready && (checks 0).result = .ok () then
              refreshChecks deadline rounds ready (targets.set i ready) fun n => checks (n + 1)
            else []

variable {timers window}

/-- How often a target can still be found expired: one not checked since the start twice, one
checked at the very start once. -/
def turnsLeft (start verifiedAt : Nat) : Nat :=
  (if verifiedAt < start then 1 else 0) + if verifiedAt ≤ start then 1 else 0

theorem turnsLeft_le_two (start verifiedAt : Nat) : turnsLeft start verifiedAt ≤ 2 := by
  unfold turnsLeft
  split <;> split <;> omega

/-- A check uses one up. -/
theorem turnsLeft_ready {start now ready verifiedAt window : Nat} (positive : 0 < window)
    (expired : verifiedAt + window ≤ now) (began : start ≤ now) (later : now ≤ ready)
    (early : ready ≤ start + window) : turnsLeft start ready + 1 ≤ turnsLeft start verifiedAt := by
  have old : verifiedAt ≤ start := by omega
  have notBefore : ¬ ready < start := by omega
  unfold turnsLeft
  rw [if_pos old, if_neg notBefore]
  by_cases unchecked : verifiedAt < start
  · rw [if_pos unchecked]
    split <;> omega
  · have fresh : ¬ ready ≤ start := by omega
    rw [if_neg fresh]
    omega

/-- No target is checked more often than it can be found expired. -/
theorem count_refreshChecks_le {start : Instant} (positive : 0 < window) (rounds : Nat)
    {now : Instant} {targets : List Instant} (began : start ≤ now) (early : now ≤ start + window)
    (checks : Nat → Check) (i : Nat) :
    (refreshChecks timers window (start + window) rounds now targets checks).count i ≤
      (targets[i]?).elim 0 (turnsLeft start) := by
  induction rounds generalizing now targets checks with
  | zero => exact Nat.zero_le _
  | succ rounds ih =>
      rw [refreshChecks]
      cases found : targets.findIdx? fun verifiedAt => decide (verifiedAt + window ≤ now) with
      | none => exact Nat.zero_le _
      | some j =>
          obtain ⟨bound, expired, -⟩ := List.findIdx?_eq_some_iff_getElem.mp found
          rw [decide_eq_true_eq] at expired
          dsimp only
          have later : now ≤ now + (checks 0).duration := Nat.le_add_right _ _
          by_cases goesOn : (timers.inTime (start + window) (now + (checks 0).duration) &&
              decide ((checks 0).result = .ok ())) = true
          · rw [if_pos goesOn, List.count_cons]
            have before := Timers.le_of_inTime (Bool.and_eq_true_iff.mp goesOn).1
            have rest := @ih (now + (checks 0).duration) (targets.set j (now + (checks 0).duration))
              (began.trans later) before fun n => checks (n + 1)
            -- The account that was checked is read at the end of its check, so it has a turn less.
            by_cases same : j = i
            · subst same
              have one := turnsLeft_ready positive expired began later before
              rw [List.getElem?_set_self bound] at rest
              rw [List.getElem?_eq_getElem bound, if_pos (beq_self_eq_true j)]
              exact (Nat.add_le_add_right rest 1).trans one
            · rw [List.getElem?_set_ne same] at rest
              rwa [if_neg (by simpa using same), Nat.add_zero]
          · rw [if_neg goesOn]
            by_cases same : j = i
            · subst same
              have old : targets[j] ≤ start :=
                Nat.le_of_add_le_add_right (expired.trans early)
              rw [List.getElem?_eq_getElem bound, Option.elim_some, turnsLeft, if_pos old]
              simp
            · simp [same]

/-- How often the targets can still be found expired: those not checked since the start twice, those
checked at the very start once. -/
def refreshesLeft (start : Nat) (targets : List Nat) : Nat :=
  targets.countP (· < start) + targets.countP (· ≤ start)

/-- A check made in time leaves one fewer. -/
theorem refreshesLeft_set {start now ready window : Nat} {targets : List Nat} {i : Nat}
    (positive : 0 < window) (found : i < targets.length) (expired : targets[i] + window ≤ now)
    (began : start ≤ now) (later : now ≤ ready) (early : ready ≤ start + window) :
    refreshesLeft start (targets.set i ready) < refreshesLeft start targets := by
  unfold refreshesLeft
  rw [List.countP_set found, List.countP_set found]
  have some_ : targets[i] ≤ start → 0 < targets.countP (· ≤ start) := fun old =>
    List.countP_pos_iff.mpr ⟨_, List.getElem_mem found, decide_eq_true old⟩
  have some' : targets[i] < start → 0 < targets.countP (· < start) := fun old =>
    List.countP_pos_iff.mpr ⟨_, List.getElem_mem found, decide_eq_true old⟩
  have old : targets[i] ≤ start := by omega
  have present := some_ old
  by_cases unchecked : targets[i] < start
  · have present' := some' unchecked
    simp only [decide_eq_true_eq, old, unchecked, if_true]
    split <;> split <;> omega
  · have fresh : start < ready := by omega
    simp only [decide_eq_true_eq, old, unchecked, if_true, if_false]
    rw [if_neg (by omega), if_neg (by omega)]
    omega

/-- The refresh before the loops start checks no account more than twice and is over by its deadline,
one window after it began; where it succeeds, the binding of every account is fresh. The rounds it
is given are enough if they are more than `refreshesLeft`. -/
theorem refresh_ends_fresh {start : Instant} {rounds : Nat} {targets : List Instant}
    (positive : 0 < window) (enough : refreshesLeft start targets < rounds) {now : Instant}
    (began : start ≤ now) (early : now ≤ start + window) (checks : Nat → Check) :
    (∀ i, (refreshChecks timers window (start + window) rounds now targets checks).count i ≤ 2) ∧
    ∃ at_ outcome, refreshExpiredBindings timers window (start + window) rounds now targets checks =
        some (at_, outcome) ∧ now ≤ at_ ∧ at_ ≤ start + window ∧
      ∀ refreshed, outcome = .ok refreshed → refreshed.length = targets.length ∧
        (AzureBindingReadiness.mk refreshed window).isFresh at_ = true := by
  refine ⟨fun i => (count_refreshChecks_le positive rounds began early checks i).trans ?_, ?_⟩
  · cases targets[i]? with
    | none => exact Nat.zero_le 2
    | some verifiedAt => exact turnsLeft_le_two start verifiedAt
  induction rounds generalizing now targets checks with
  | zero => omega
  | succ rounds ih =>
      rw [refreshExpiredBindings]
      cases found : targets.findIdx? fun verifiedAt => decide (verifiedAt + window ≤ now) with
      | none =>
          refine ⟨now, .ok targets, rfl, le_rfl, early, ?_⟩
          rintro _ ⟨⟩
          refine ⟨rfl, ?_⟩
          rw [List.findIdx?_eq_none_iff] at found
          rw [AzureBindingReadiness.isFresh, List.all_eq_true]
          intro verifiedAt mem
          have fresh := found verifiedAt mem
          rw [decide_eq_false_iff_not, Nat.not_le] at fresh
          exact decide_eq_true fresh
      | some i =>
          obtain ⟨bound, expired, -⟩ := List.findIdx?_eq_some_iff_getElem.mp found
          rw [decide_eq_true_eq] at expired
          dsimp only
          cases inTime : timers.inTime (start + window) (now + (checks 0).duration) with
          | false =>
              rw [if_neg Bool.false_ne_true]
              exact ⟨_, _, rfl, le_max_left _ _, max_le early le_rfl, nofun⟩
          | true =>
              rw [if_pos rfl]
              have before := Timers.le_of_inTime inTime
              have later : now ≤ now + (checks 0).duration := Nat.le_add_right _ _
              cases (checks 0).result with
              | error error => exact ⟨_, _, rfl, later, before, nofun⟩
              | ok =>
                  -- Each round that goes on leaves fewer refreshes, which is what the
                  -- induction needs.
                  have fewer := refreshesLeft_set positive bound expired began later before
                  obtain ⟨at_, outcome, ended, after, inTime', fresh⟩ :=
                    ih (fewer.trans_le (Nat.le_of_lt_succ enough)) (began.trans later) before
                      fun n => checks (n + 1)
                  refine ⟨at_, outcome, ended, later.trans after, inTime', fun refreshed ok => ?_⟩
                  obtain ⟨same, fresh⟩ := fresh refreshed ok
                  rw [List.length_set] at same
                  exact ⟨same, fresh⟩

/-- Of three bindings two have expired; their checks take 4 each. -/
theorem refresh_ends_fresh_thrice :
    (∀ i, (refreshChecks (delayed 10) 20 (30 + 20) 7 30 [5, 10, 25]
        fun _ => ⟨.ok (), 4⟩).count i ≤ 2) ∧
    ∃ at_ outcome, refreshExpiredBindings (delayed 10) 20 (30 + 20) 7 30 [5, 10, 25]
        (fun _ => ⟨.ok (), 4⟩) = some (at_, outcome) ∧ 30 ≤ at_ ∧ at_ ≤ 30 + 20 ∧
      ∀ refreshed, outcome = .ok refreshed → refreshed.length = [5, 10, 25].length ∧
        (AzureBindingReadiness.mk refreshed 20).isFresh at_ = true :=
  refresh_ends_fresh (by decide) (by decide) le_rfl (by decide) _

end Refresh

end GmMiner.Azure
