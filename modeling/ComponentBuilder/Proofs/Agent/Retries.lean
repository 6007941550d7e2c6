import ComponentBuilder.Agent.Caller
import ComponentBuilder.Proofs.Number.Scaling

/-!
# Retrying refused calls

A call is read against two machines at once: the script of what the provider replies, and the breaker, which
counts the failures.  What an attempt comes to is said first, from the line as it was before the call, and
then how many attempts a call makes and how it ends.

A pause is the first one times a power of two.  The powers are doubles only below `2 ^ 1024`, so a call that
was refused that often ends with neither a reply nor a refusal, although retries are left.
-/

namespace ComponentBuilder.Agent

/-! ## What one attempt comes to -/

/-- What an attempt to call a model comes to. -/
inductive Verdict where
  | answered (text : String)
  /-- The provider refused for reasons of quota, and the breaker stayed closed. -/
  | refused (reason : String)
  /-- The provider failed in another way, and the breaker stayed closed. -/
  | broken (reason : String)
  /-- The breaker refused the attempt, or its failure opened the breaker. -/
  | stopped
deriving DecidableEq

/-- The word under which an attempt is counted. -/
def Verdict.status : Verdict → String
  | answered _ => "success"
  | refused _ => "rate_limited"
  | broken _ => "error"
  | stopped => "breaker_open"

/-- Whether the last of so many failures in a row opens the breaker: any failure of a call on trial does,
and otherwise the one that reaches the limit. -/
def Breaker.opensAfter (breaker : Breaker) (failures : Nat) : Bool :=
  breaker.openedAt.isSome || breaker.limit ≤ (breaker.failures + failures : Nat)

namespace Line

/-- What the provider replies to an attempt after so many others. -/
def reply (line : Line) (earlier : Nat) : Except ProviderError String :=
  (Script.next (line.script.drop earlier)).1.text

/-- What an attempt comes to after so many others that were refused. -/
def verdict (line : Line) (now : Int) (earlier : Nat) : Verdict :=
  if line.breaker.admission now = .refused then .stopped
  else
    match line.reply earlier with
    | .ok text => .answered text
    | .error error =>
        if line.breaker.opensAfter (earlier + 1) then .stopped
        else if error.isQuota then .refused error.text
        else .broken error.text

/-- The line after a failed attempt. -/
def failed (line : Line) (now : Int) : Line where
  script := line.script.next.2
  breaker := line.breaker.fail now

end Line

theorem Breaker.isOpen_fail (breaker : Breaker) (now : Int) :
    (breaker.fail now).isOpen = breaker.opensAfter 1 := by
  unfold fail isOpen opensAfter
  dsimp only
  split <;> simp_all

theorem Breaker.opensAfter_fail {breaker : Breaker} {now : Int} (h : breaker.opensAfter 1 = false)
    (failures : Nat) : (breaker.fail now).opensAfter failures = breaker.opensAfter (failures + 1) := by
  unfold opensAfter fail at *
  simp_all [Nat.add_comm, Nat.add_left_comm]

/-- A breaker that a failure leaves closed admits the next call. -/
theorem Breaker.admission_fail {breaker : Breaker} {now : Int} (h : breaker.opensAfter 1 = false) :
    (breaker.fail now).admission now = .granted := by
  rw [← isOpen_fail breaker now] at h
  unfold admission
  unfold isOpen at h
  rw [Option.isSome_eq_false_iff, Option.isNone_iff_eq_none] at h
  rw [h]

theorem Line.reply_failed (line : Line) (now : Int) (earlier : Nat) :
    (line.failed now).reply earlier = line.reply (earlier + 1) := by
  obtain ⟨script, breaker⟩ := line
  cases script <;> simp [reply, failed, Script.next]

namespace CallPolicy

variable {policy : CallPolicy} {now : Int} {prompt : String} {retries made : Nat} {line : Line}

/-- An attempt that the provider refused for reasons of quota is followed by a later one, if there is one. -/
def afterRefusal (policy : CallPolicy) (now : Int) (prompt : String) (made : Nat) (line : Line)
    (reason : String) : (retries : Nat) → Call
  | 0 => ⟨.error (.quota policy.role reason), line, ⟨[prompt], [], [policy.counted "rate_limited"]⟩⟩
  | retries + 1 =>
      match policy.pauseAfter? made with
      | none => ⟨.error .overlongPause, line, ⟨[prompt], [], [policy.counted "rate_limited"]⟩⟩
      | some pause =>
          let later := policy.attempt now prompt retries (made + 1) line
          { later with trace := ⟨[prompt], [pause], [policy.counted "rate_limited"]⟩ ++ later.trace }

theorem attempt_eq (policy : CallPolicy) (now : Int) (prompt : String) (retries made : Nat) (line : Line) :
    policy.attempt now prompt retries made line =
      match line.verdict now 0 with
      | .answered text => {
          result := .ok text
          line := ⟨line.script.next.2, line.breaker.succeed⟩
          trace := { prompts := [prompt], events := [policy.counted "success"] } }
      | .refused reason => policy.afterRefusal now prompt made (line.failed now) reason retries
      | .broken reason => {
          result := .error (.broken policy.role reason)
          line := line.failed now
          trace := { prompts := [prompt], events := [policy.counted "error"] } }
      | .stopped =>
          if line.breaker.admission now = .refused then policy.stopped line []
          else policy.stopped (line.failed now) [prompt] := by
  have hreply : line.reply 0 = line.script.next.1.text := rfl
  have hopen := line.breaker.isOpen_fail now
  unfold attempt Line.verdict
  cases hadmission : line.breaker.admission now with
  | refused => simp
  | granted | onTrial =>
      simp only [reduceCtorEq, if_false, hreply, Nat.zero_add, ← hopen]
      cases htext : line.script.next.1.text with
      | ok text => rfl
      | error error =>
          dsimp only
          split
          · rfl
          · cases hquota : error.isQuota
            · rfl
            · cases retries with
              | zero => rfl
              | succ retries =>
                  simp [afterRefusal, Line.failed]
                  cases policy.pauseAfter? made <;> rfl

/-! ## The course of a call -/

/-- How a call ends with its last attempt, `spent` when no retry is left. -/
def outcome (policy : CallPolicy) (spent : Bool) : Verdict → Except Failure String
  | .answered text => .ok text
  | .refused reason => .error (if spent then .quota policy.role reason else .overlongPause)
  | .broken reason => .error (.broken policy.role reason)
  | .stopped => .error (.suspended policy.role)

/-- A call that makes `count` pauses, after `made` retries and with `retries` left at its start. -/
structure Course (policy : CallPolicy) (now : Int) (prompt : String) (retries made : Nat) (line : Line)
    (count : Nat) (call : Call) : Prop where
  le : count ≤ retries
  refused : ∀ i < count, ∃ reason, line.verdict now i = .refused reason
  pauses : call.trace.pauses.map some = (List.range count).map fun i => policy.pauseAfter? (made + i)
  prompts : call.trace.prompts =
    List.replicate (if line.breaker.admission now = .refused then 0 else count + 1) prompt
  events : call.trace.events =
    (List.range (count + 1)).map fun i => policy.counted (line.verdict now i).status
  result : call.result = policy.outcome (count = retries) (line.verdict now count)
  last : ∀ reason, line.verdict now count = .refused reason → count < retries →
    policy.pauseAfter? (made + count) = none

theorem Line.admission_of_verdict {line : Line} {now : Int} {earlier : Nat} {verdict : Verdict}
    (h : line.verdict now earlier = verdict) (hne : verdict ≠ .stopped) :
    line.breaker.admission now ≠ .refused := by
  intro hrefused
  rw [Line.verdict, if_pos hrefused] at h
  exact hne h.symm

/-- A refusal that leaves the breaker closed goes on as if it had not been, one attempt later. -/
theorem Line.verdict_failed {line : Line} {now : Int} {reason : String}
    (h : line.verdict now 0 = .refused reason) (earlier : Nat) :
    (line.failed now).verdict now earlier = line.verdict now (earlier + 1) ∧
      (line.failed now).breaker.admission now ≠ .refused := by
  have hadmission : line.breaker.admission now ≠ .refused := admission_of_verdict h nofun
  have hclosed : line.breaker.opensAfter 1 = false := by
    rw [Line.verdict, if_neg hadmission] at h
    cases hreply : line.reply 0 with
    | ok text => simp [hreply] at h
    | error error =>
        rw [hreply] at h
        cases hopens : line.breaker.opensAfter 1 with
        | false => rfl
        | true => simp [hopens] at h
  have hlater : (line.failed now).breaker.admission now ≠ .refused := by
    rw [Line.failed, Breaker.admission_fail hclosed]
    nofun
  refine ⟨?_, hlater⟩
  rw [Line.verdict, Line.verdict, if_neg hlater, if_neg hadmission, Line.reply_failed, Line.failed,
    Breaker.opensAfter_fail hclosed]

theorem Course.of_single {call : Call}
    (htrace : call.trace = ⟨if line.breaker.admission now = .refused then [] else [prompt], [],
      [policy.counted (line.verdict now 0).status]⟩)
    (hresult : call.result = policy.outcome (0 = retries) (line.verdict now 0))
    (hlast : ∀ reason, line.verdict now 0 = .refused reason → 0 < retries →
      policy.pauseAfter? made = none) : policy.Course now prompt retries made line 0 call where
  le := Nat.zero_le retries
  refused := nofun
  pauses := by rw [htrace]; rfl
  prompts := by rw [htrace]; split <;> rfl
  events := by rw [htrace]; rfl
  result := hresult
  last := hlast

theorem Course.of_refused {later : Call} {reason : String} {pause : Double} {count : Nat}
    (hverdict : line.verdict now 0 = .refused reason) (hpause : policy.pauseAfter? made = some pause)
    (h : policy.Course now prompt retries (made + 1) (line.failed now) count later) :
    policy.Course now prompt (retries + 1) made line (count + 1)
      { later with trace := ⟨[prompt], [pause], [policy.counted "rate_limited"]⟩ ++ later.trace } := by
  have hadmission : line.breaker.admission now ≠ .refused := Line.admission_of_verdict hverdict nofun
  have hlater := Line.verdict_failed hverdict
  refine ⟨Nat.succ_le_succ h.le, ?_, ?_, ?_, ?_, ?_, ?_⟩
  · intro i hi
    cases i with
    | zero => exact ⟨reason, hverdict⟩
    | succ i =>
        rw [← (hlater i).1]
        exact h.refused i (Nat.lt_of_succ_lt_succ hi)
  · rw [Trace.pauses_append, List.map_append, h.pauses, List.range_succ_eq_map]
    simp [hpause, Nat.add_assoc, Nat.add_comm 1]
  · rw [Trace.prompts_append, h.prompts, if_neg (hlater 0).2, if_neg hadmission]
    rfl
  · rw [Trace.events_append, h.events, List.range_succ_eq_map (n := count + 1)]
    simp [hverdict, hlater, Verdict.status]
  · simp [h.result, hlater]
  · intro reason hreason hlt
    rw [← (hlater count).1] at hreason
    rw [← Nat.add_assoc, Nat.add_right_comm]
    exact h.last reason hreason (Nat.lt_of_succ_lt_succ hlt)

theorem course_of_not_refused (h : ∀ reason, line.verdict now 0 ≠ .refused reason) :
    policy.Course now prompt retries made line 0 (policy.attempt now prompt retries made line) := by
  have hlast (reason : String) (hrefused : line.verdict now 0 = .refused reason) : 0 < retries →
      policy.pauseAfter? made = none :=
    absurd hrefused (h reason)
  rw [attempt_eq]
  cases hverdict : line.verdict now 0 with
  | refused reason => exact absurd hverdict (h reason)
  | answered text | broken reason =>
      have hadmission := Line.admission_of_verdict hverdict nofun
      dsimp only
      refine .of_single ?_ ?_ hlast
      · rw [hverdict, if_neg hadmission]
        rfl
      · rw [hverdict]
        rfl
  | stopped =>
      dsimp only
      by_cases hadmission : line.breaker.admission now = .refused
      · rw [if_pos hadmission]
        refine .of_single ?_ ?_ hlast
        · rw [hverdict, if_pos hadmission]
          rfl
        · rw [hverdict]
          rfl
      · rw [if_neg hadmission]
        refine .of_single ?_ ?_ hlast
        · rw [hverdict, if_neg hadmission]
          rfl
        · rw [hverdict]
          rfl

theorem attempt_of_refused {reason : String} (h : line.verdict now 0 = .refused reason) :
    policy.attempt now prompt retries made line =
      policy.afterRefusal now prompt made (line.failed now) reason retries := by
  rw [attempt_eq, h]

/-- A call makes one pause after another until an attempt is not refused for reasons of quota, or no retry or
no pause is left. -/
theorem attempt_course (policy : CallPolicy) (now : Int) (prompt : String) (retries made : Nat)
    (line : Line) :
    ∃ count, policy.Course now prompt retries made line count
      (policy.attempt now prompt retries made line) := by
  -- The line that a refusal leaves is the line of the later attempts, and its verdicts are the later verdicts.
  induction retries generalizing made line with
  | zero =>
      by_cases hrefused : ∃ reason, line.verdict now 0 = .refused reason
      · obtain ⟨reason, hverdict⟩ := hrefused
        have hadmission := Line.admission_of_verdict hverdict nofun
        refine ⟨0, .of_single ?_ ?_ nofun⟩
        · rw [attempt_of_refused hverdict, hverdict, if_neg hadmission]
          rfl
        · rw [attempt_of_refused hverdict, hverdict]
          rfl
      · exact ⟨0, course_of_not_refused (not_exists.1 hrefused)⟩
  | succ retries ih =>
      by_cases hrefused : ∃ reason, line.verdict now 0 = .refused reason
      · obtain ⟨reason, hverdict⟩ := hrefused
        have hadmission := Line.admission_of_verdict hverdict nofun
        rw [attempt_of_refused hverdict, afterRefusal]
        cases hpause : policy.pauseAfter? made with
        | none =>
            refine ⟨0, .of_single ?_ ?_ fun _ _ _ => hpause⟩
            · rw [hverdict, if_neg hadmission]
              rfl
            · rw [hverdict]
              rfl
        | some pause =>
            obtain ⟨count, hcount⟩ := ih (made + 1) (line.failed now)
            exact ⟨count + 1, .of_refused hverdict hpause hcount⟩
      · exact ⟨0, course_of_not_refused (not_exists.1 hrefused)⟩

theorem pauseAfter?_eq (policy : CallPolicy) (made : Nat) :
    policy.pauseAfter? made =
      if made < 1024 then some (policy.pause.mul (Double.ofInt (2 ^ made))) else none := by
  have hpower : Int.pow 2 made = 2 ^ made := rfl
  rw [pauseAfter?, hpower, Double.isFinite_ofInt_two_pow]
  simp only [decide_eq_true_eq]

namespace Course

variable {count : Nat} {call : Call}

theorem pauseAfter?_of_lt (h : policy.Course now prompt retries made line count call) {i : Nat}
    (hi : i < count) : ∃ pause, policy.pauseAfter? (made + i) = some pause := by
  have hmem : policy.pauseAfter? (made + i) ∈ call.trace.pauses.map some := by
    rw [h.pauses]
    exact List.mem_map_of_mem (List.mem_range.2 hi)
  obtain ⟨pause, -, hpause⟩ := List.mem_map.1 hmem
  exact ⟨pause, hpause.symm⟩

/-- There is no pause after a thousand and twenty-four others. -/
theorem count_le (h : policy.Course now prompt retries 0 line count call) : count ≤ 1024 := by
  by_contra hmore
  obtain ⟨pause, hpause⟩ := h.pauseAfter?_of_lt (not_le.1 hmore)
  rw [pauseAfter?_eq, if_neg (by decide)] at hpause
  cases hpause

theorem pauses_eq (h : policy.Course now prompt retries 0 line count call) :
    call.trace.pauses = (List.range count).map fun i => policy.pause.mul (Double.ofInt (2 ^ i)) := by
  apply List.map_injective_iff.2 (Option.some_injective _)
  rw [h.pauses, List.map_map]
  refine List.map_congr_left fun i hi => ?_
  rw [Nat.zero_add, pauseAfter?_eq, if_pos ((List.mem_range.1 hi).trans_le h.count_le), Function.comp_apply]

/-- A refused attempt is the last one if no retry is left, or no pause. -/
theorem last_of_refused (h : policy.Course now prompt retries 0 line count call) {reason : String}
    (hverdict : line.verdict now count = .refused reason) (hne : count ≠ retries) :
    count = 1024 ∧ 1024 < retries := by
  have hlt : count < retries := lt_of_le_of_ne h.le hne
  have hnone := h.last reason hverdict hlt
  rw [Nat.zero_add, pauseAfter?_eq] at hnone
  have hcount := h.count_le
  split_ifs at hnone with hless
  omega

end Course

/-- A reply is returned only if the last attempt was answered with it. -/
theorem outcome_eq_ok_iff {spent : Bool} {verdict : Verdict} {text : String} :
    policy.outcome spent verdict = .ok text ↔ verdict = .answered text := by
  cases verdict <;> simp [outcome]

theorem outcome_quota_iff {spent : Bool} {verdict : Verdict} :
    (∃ failure, policy.outcome spent verdict = .error failure ∧ failure.family = .quota) ↔
      spent = true ∧ ∃ reason, verdict = .refused reason := by
  cases verdict <;> cases spent <;> simp [outcome, Failure.family]

theorem outcome_overlongPause_iff {spent : Bool} {verdict : Verdict} :
    policy.outcome spent verdict = .error .overlongPause ↔
      spent = false ∧ ∃ reason, verdict = .refused reason := by
  cases verdict <;> cases spent <;> simp [outcome]

theorem family_of_outcome {spent : Bool} {verdict : Verdict} {failure : Failure}
    (h : policy.outcome spent verdict = .error failure) :
    failure.family = .quota ∨ failure.family = .upstream ∨ failure = .overlongPause := by
  cases verdict <;> cases spent <;> cases h <;> simp [Failure.family]

/-- A call asks the model once more after every pause, the pauses double, and each but the last attempt was a
refusal for reasons of quota that left the breaker closed.  How the last one comes out is how the call ends,
unless the last one is such a refusal and the next pause would be the thousand and twenty-fifth. -/
theorem call_follows_verdicts (policy : CallPolicy) (now : Int) (prompt : String) (line : Line) :
    ∃ count, count ≤ policy.retries ∧ count ≤ 1024 ∧
      (∀ i < count, ∃ reason, line.verdict now i = .refused reason) ∧
      (policy.call now prompt line).trace = {
        prompts := List.replicate (if line.breaker.admission now = .refused then 0 else count + 1) prompt
        pauses := (List.range count).map fun i => policy.pause.mul (Double.ofInt (2 ^ i))
        events := (List.range (count + 1)).map fun i => policy.counted (line.verdict now i).status } ∧
      (∀ delay, policy.pause.number? = some delay → ∀ i < count,
        (policy.pause.mul (Double.ofInt (2 ^ i))).number? = some (delay * 2 ^ i) ∨
          2 ^ 1024 ≤ |delay| * 2 ^ i ∧
            ∃ sign, (policy.pause.mul (Double.ofInt (2 ^ i))).unpacked = .infinity sign) ∧
      (∀ text, (policy.call now prompt line).result = .ok text ↔ line.verdict now count = .answered text) ∧
      ((∃ failure, (policy.call now prompt line).result = .error failure ∧ failure.family = .quota) ↔
        count = policy.retries ∧ ∃ reason, line.verdict now count = .refused reason) ∧
      ((policy.call now prompt line).result = .error .overlongPause ↔
        count = 1024 ∧ 1024 < policy.retries ∧ ∃ reason, line.verdict now count = .refused reason) ∧
      ∀ failure, (policy.call now prompt line).result = .error failure →
        failure.family = .quota ∨ failure.family = .upstream ∨ failure = .overlongPause := by
  obtain ⟨count, hcourse⟩ := attempt_course policy now prompt policy.retries 0 line
  rw [← call] at hcourse
  have hresult := hcourse.result
  refine ⟨count, hcourse.le, hcourse.count_le, hcourse.refused, ?_, ?_, ?_, ?_, ?_, ?_⟩
  · rw [← hcourse.prompts, ← hcourse.pauses_eq, ← hcourse.events]
  · intro delay hdelay i hi
    exact Double.number?_mul_two_pow hdelay (hi.trans_le hcourse.count_le)
  · intro text
    rw [hresult, outcome_eq_ok_iff]
  · rw [hresult, outcome_quota_iff, decide_eq_true_eq]
  · rw [hresult, outcome_overlongPause_iff, decide_eq_false_iff_not]
    constructor
    · rintro ⟨hne, reason, hverdict⟩
      obtain ⟨hcount, hmore⟩ := hcourse.last_of_refused hverdict hne
      exact ⟨hcount, hmore, reason, hverdict⟩
    · rintro ⟨rfl, hmore, hverdict⟩
      exact ⟨hmore.ne, hverdict⟩
  · intro failure hfailure
    exact family_of_outcome (hresult.symm.trans hfailure)

/-- A provider that keeps refusing ends a call with a failure of another kind after a thousand and twenty-four
retries, though a retry is left, no pause is long and the breaker is closed. -/
theorem call_overlong :
    let policy : CallPolicy := { role := "planner", retries := 1025, pause := Double.ofInt 0 }
    let line : Line := {
      script := List.replicate 1026 (.error ⟨"QuotaError", "429", []⟩)
      breaker := { limit := 2000, rest := 30 } }
    (∀ i ≤ 1025, line.verdict 0 i = .refused "429") ∧
      (policy.call 0 "p" line).result = .error .overlongPause ∧ Failure.overlongPause.family = .other := by
  intro policy line
  have hreply (i : Nat) (hi : i ≤ 1025) : line.reply i = .error ⟨"QuotaError", "429", []⟩ := by
    obtain ⟨more, hmore⟩ : ∃ more, 1026 - i = more + 1 := ⟨1025 - i, by omega⟩
    rw [Line.reply, List.drop_replicate, hmore]
    rfl
  have hquota : ProviderError.isQuota ⟨"QuotaError", "429", []⟩ = true := by decide
  have hrefused (i : Nat) (hi : i ≤ 1025) : line.verdict 0 i = .refused "429" := by
    have hclosed : line.breaker.opensAfter (i + 1) = false := by
      simp only [Breaker.opensAfter, line, Option.isSome_none, Bool.false_or, decide_eq_false_iff_not]
      omega
    rw [Line.verdict, if_neg (by decide), hreply i hi]
    simp [hclosed, hquota]
  refine ⟨hrefused, ?_, rfl⟩
  obtain ⟨count, hcourse⟩ := attempt_course policy 0 "p" policy.retries 0 line
  have hverdict := hrefused count hcourse.le
  have hne : count ≠ policy.retries := (hcourse.count_le.trans_lt (by decide)).ne
  rw [call, hcourse.result, outcome_overlongPause_iff, decide_eq_false_iff_not]
  exact ⟨hne, "429", hverdict⟩

end CallPolicy

end ComponentBuilder.Agent
