import ComponentBuilder.Preview.Call
import ComponentBuilder.Proofs.Number.Order
import Mathlib.Data.List.Destutter

/-!
# The life of a preview session

A call that neither loads a document nor drops it leaves a session alone or takes it one admitted step
further.  From that, whatever the calls and their arguments, the states after a load run along one of three
courses, what comes from an older document changes nothing, and a late document fails once.
-/

namespace ComponentBuilder.Preview

/-! ## States -/

theorem State.ne_of_admits {state next : State} (h : state.admits next = true) : next ≠ state := by
  rintro rfl
  cases next <;> cases h

/-- No report leads to a session without a document, or with one that is being compiled. -/
theorem State.not_quiet_of_admits {state next : State} (h : state.admits next = true) :
    next ≠ .idle ∧ next ≠ .compiling := by
  revert h
  cases state <;> cases next <;> decide

/-- The courses that the states may take from a state on, until the next load or reset. -/
def State.courses : State → List (List State)
  | idle => [[idle]]
  | compiling => [[compiling, mounted, runtimeError], [compiling, compileError], [compiling, runtimeError]]
  | mounted => [[mounted, runtimeError]]
  | compileError => [[compileError]]
  | runtimeError => [[runtimeError]]

/-- An admitted step in front of a course makes a course. -/
theorem State.cons_mem_courses {state next : State} (h : state.admits next = true) {course : List State}
    (hcourse : course ∈ next.courses) : state :: course ∈ state.courses := by
  revert course
  revert h
  cases state <;> cases next <;> decide

theorem State.singleton_prefix (state : State) : ∃ course ∈ state.courses, [state] <+: course := by
  cases state <;> simp [courses]

namespace Session

variable {session first : Session}

/-! ## One call -/

theorem report_cases (session : Session) (generation : Int) (label message : String) :
    session.report generation label message = (session, false) ∨
      ∃ state, generation = session.generation ∧ session.state.admits state = true ∧
        session.report generation label message =
          ({ session with state := state, message := message }, true) := by
  unfold report
  cases State.ofLabel? label with
  | none => exact .inl rfl
  | some state =>
      by_cases h : (generation = session.generation && session.state.admits state) = true
      · refine .inr ⟨state, ?_, ?_, if_pos h⟩
        · simpa using (Bool.and_eq_true_iff.1 h).1
        · exact (Bool.and_eq_true_iff.1 h).2
      · exact .inl (if_neg h)

/-- A late document is one that is still being compiled when the time allowed for it is over. -/
def IsLate (session : Session) (now : Double) : Prop :=
  session.state = .compiling ∧ ∃ allowed started, session.deadline? = some allowed ∧
    session.startedAt = some started ∧ (now.sub started).lt allowed = false

theorem checkWatchdog_cases (session : Session) (now : Double) :
    (¬session.IsLate now ∧ session.checkWatchdog now = (session, false)) ∨
      (session.IsLate now ∧ ∃ message,
        session.checkWatchdog now =
          ({ session with state := .runtimeError, message := message }, true)) := by
  unfold checkWatchdog
  split
  · next allowed started hallowed hstate hstarted =>
      by_cases h : (now.sub started).lt allowed = true
      · refine .inl ⟨?_, if_pos h⟩
        rintro ⟨-, allowed', started', hallowed', hstarted', hlate⟩
        rw [hallowed, Option.some.injEq] at hallowed'
        rw [hstarted, Option.some.injEq] at hstarted'
        rw [hallowed', hstarted', hlate] at h
        cases h
      · exact .inr ⟨⟨hstate, allowed, started, hallowed, hstarted, by simpa using h⟩, _, if_neg h⟩
  · next hnone =>
      refine .inl ⟨?_, rfl⟩
      rintro ⟨hstate, allowed, started, hallowed, hstarted, -⟩
      exact hnone allowed started hallowed hstate hstarted

/-- A call that neither loads nor drops leaves the session alone, or takes it one admitted step further. -/
theorem perform_cases (session : Session) {call : Call} (h : call.turns = false) :
    session.perform call = (session, some false) ∨
      ∃ state message, session.state.admits state = true ∧
        session.perform call = ({ session with state := state, message := message }, some true) := by
  cases call with
  | load | reset => cases h
  | report generation label message =>
      rcases session.report_cases generation label message with hnone | ⟨state, -, hadmits, hreport⟩
      · exact .inl (by rw [perform, hnone])
      · exact .inr ⟨state, message, hadmits, by rw [perform, hreport]⟩
  | checkWatchdog now =>
      rcases session.checkWatchdog_cases now with ⟨-, hnone⟩ | ⟨hlate, message, hcheck⟩
      · exact .inl (by rw [perform, hnone])
      · exact .inr ⟨.runtimeError, message, by rw [hlate.1]; rfl, by rw [perform, hcheck]⟩

theorem report_current (session : Session) (generation : Int) (label message : String)
    (hchanged : (session.report generation label message).1 ≠ session) :
    generation = session.generation := by
  rcases session.report_cases generation label message with hnone | ⟨state, hcurrent, -⟩
  · exact absurd (congrArg Prod.fst hnone) hchanged
  · exact hcurrent

theorem perform_answer (session : Session) {call : Call} (h : call.turns = false) :
    ∃ changed, (session.perform call).2 = some changed ∧
      (changed = true ↔ (session.perform call).1.state ≠ session.state) ∧
      (changed = false → (session.perform call).1 = session) := by
  rcases session.perform_cases h with hsame | ⟨state, message, hadmits, hstep⟩
  · rw [hsame]
    exact ⟨false, rfl, by simp, fun _ => rfl⟩
  · rw [hstep]
    exact ⟨true, rfl, by simpa using State.ne_of_admits hadmits, nofun⟩

/-! ## What calls keep -/

theorem after_concat (calls : List Call) (call : Call) :
    first.after (calls ++ [call]) = ((first.after calls).perform call).1 := by
  simp [after]

theorem after_append (earlier later : List Call) :
    first.after (earlier ++ later) = (first.after earlier).after later :=
  List.foldl_append

/-- What holds of a session after calls on a new one. -/
structure Tracks (session first : Session) (calls : List Call) : Prop where
  watchdog : session.watchdog = first.watchdog
  generation : session.generation = first.generation + calls.countP Call.isLoad
  quiet : session.state = .idle ∨ session.state = .compiling → session.message = ""
  started : session.state = .compiling → session.startedAt = (calls.filterMap Call.loadTime?).getLast?

theorem Tracks.perform {calls : List Call} (h : session.Tracks first calls) (call : Call) :
    (session.perform call).1.Tracks first (calls ++ [call]) := by
  cases hturns : call.turns with
  | false =>
      have hload : call.loadTime? = none := by cases call <;> first | rfl | cases hturns
      have hcount : (calls ++ [call]).countP Call.isLoad = calls.countP Call.isLoad := by
        simp [List.countP_append, Call.isLoad, hload]
      have htimes : (calls ++ [call]).filterMap Call.loadTime? = calls.filterMap Call.loadTime? := by
        simp [List.filterMap_append, hload]
      rcases session.perform_cases hturns with hsame | ⟨state, message, hadmits, hstep⟩
      · rw [hsame]
        exact ⟨h.watchdog, by rw [hcount, h.generation], h.quiet, by rw [htimes]; exact h.started⟩
      · rw [hstep]
        obtain ⟨hidle, hcompiling⟩ := State.not_quiet_of_admits hadmits
        exact ⟨h.watchdog, by rw [hcount, h.generation], fun hquiet => (hquiet.elim hidle hcompiling).elim,
          fun hstate => absurd hstate hcompiling⟩
  | true =>
      cases call with
      | report | checkWatchdog => cases hturns
      | load now source =>
          refine ⟨h.watchdog, ?_, fun _ => rfl, fun _ => ?_⟩
          · simp [Session.perform, load, h.generation, List.countP_append, Call.isLoad, Call.loadTime?,
              Int.add_assoc]
          · simp [Session.perform, load, List.filterMap_append, Call.loadTime?]
      | reset =>
          refine ⟨h.watchdog, ?_, fun _ => rfl, nofun⟩
          simp [Session.perform, reset, h.generation, List.countP_append, Call.isLoad, Call.loadTime?]

theorem tracks_after (hstate : first.state = .idle) (hmessage : first.message = "") (calls : List Call) :
    (first.after calls).Tracks first calls := by
  induction calls using List.reverseRecOn with
  | nil => exact ⟨rfl, by simp [after], fun _ => hmessage, fun h => by simp [after, hstate] at h⟩
  | append_singleton calls call ih =>
      rw [after_concat]
      exact ih.perform call

/-- A state from which nothing is admitted stays until the next load or reset. -/
theorem stays (h : ∀ next, session.state.admits next = false) {call : Call} (hcall : call.turns = false) :
    (session.perform call).1 = session := by
  rcases session.perform_cases hcall with hsame | ⟨state, message, hadmits, -⟩
  · rw [hsame]
  · rw [h state] at hadmits
    cases hadmits

theorem states_stay (h : ∀ next, session.state.admits next = false) {later : List Call}
    (hlater : ∀ call ∈ later, call.turns = false) :
    ∀ state ∈ session.states later, state = session.state := by
  induction later with
  | nil => simp [states]
  | cons call later ih =>
      rw [states, stays h (hlater call List.mem_cons_self)]
      intro state hstate
      rcases List.mem_cons.1 hstate with rfl | hstate
      · rfl
      · exact ih (fun other hother => hlater other (List.mem_cons_of_mem call hother)) state hstate

/-! ## Courses -/

theorem states_eq_cons (calls : List Call) : ∃ rest, session.states calls = session.state :: rest := by
  cases calls <;> exact ⟨_, rfl⟩

theorem states_prefix_course (session : Session) {later : List Call}
    (hlater : ∀ call ∈ later, call.turns = false) :
    ∃ course ∈ session.state.courses, (session.states later).destutter (· ≠ ·) <+: course := by
  induction later generalizing session with
  | nil => exact session.state.singleton_prefix
  | cons call later ih =>
      have hrest : ∀ other ∈ later, other.turns = false :=
        fun other hother => hlater other (List.mem_cons_of_mem call hother)
      rw [states]
      -- A call that changes nothing repeats a state, which counts once; an admitted step heads a course.
      rcases session.perform_cases (hlater call List.mem_cons_self) with
        hsame | ⟨state, message, hadmits, hstep⟩
      · obtain ⟨course, hcourse, hprefix⟩ := ih session hrest
        obtain ⟨rest, hstates⟩ := session.states_eq_cons later
        rw [hsame, hstates, List.destutter_cons_cons, if_neg (by simp)]
        rw [hstates] at hprefix
        exact ⟨course, hcourse, hprefix⟩
      · obtain ⟨course, hcourse, hprefix⟩ :=
          ih { session with state := state, message := message } hrest
        obtain ⟨rest, hstates⟩ :=
          ({ session with state := state, message := message } : Session).states_eq_cons later
        rw [hstep, hstates, List.destutter_cons_cons, if_pos (State.ne_of_admits hadmits).symm]
        rw [hstates] at hprefix
        exact ⟨session.state :: course, State.cons_mem_courses hadmits hcourse,
          (List.prefix_cons_inj session.state).2 hprefix⟩

theorem states_of_load (session : Session) (now : Double) (source : Json) {later : List Call}
    (hlater : ∀ call ∈ later, call.turns = false) :
    ∃ course ∈ [[State.compiling, .mounted, .runtimeError], [.compiling, .compileError],
        [.compiling, .runtimeError]],
      ((session.perform (.load now source)).1.states later).destutter (· ≠ ·) <+: course :=
  states_prefix_course (session.perform (.load now source)).1 hlater

/-! ## Documents that are gone -/

/-- The document of a generation is no longer there. -/
def IsStale (session : Session) (generation : Int) : Prop :=
  generation < session.generation ∨ generation ≤ session.generation ∧ session.state = .idle

theorem IsStale.report {generation : Int} (h : session.IsStale generation) (label message : String) :
    session.report generation label message = (session, false) := by
  rcases session.report_cases generation label message with hnone | ⟨state, rfl, hadmits, -⟩
  · exact hnone
  · rcases h with hlt | ⟨-, hidle⟩
    · exact absurd hlt (Int.lt_irrefl _)
    · rw [hidle] at hadmits
      cases hadmits

theorem isStale_of_turns {generation : Int} (hle : generation ≤ session.generation) {call : Call}
    (hcall : call.turns = true) : (session.perform call).1.IsStale generation := by
  cases call with
  | report | checkWatchdog => cases hcall
  | load now source => exact .inl (Int.lt_add_one_of_le hle)
  | reset => exact .inr ⟨hle, rfl⟩

theorem IsStale.perform {generation : Int} (h : session.IsStale generation) (call : Call) :
    (session.perform call).1.IsStale generation := by
  cases hcall : call.turns with
  | true => exact isStale_of_turns (h.elim Int.le_of_lt And.left) hcall
  | false =>
      rcases session.perform_cases hcall with hsame | ⟨state, message, hadmits, hstep⟩
      · rwa [hsame]
      · rw [hstep]
        rcases h with hlt | ⟨-, hidle⟩
        · exact .inl hlt
        · rw [hidle] at hadmits
          cases hadmits

theorem IsStale.after {generation : Int} (h : session.IsStale generation) (later : List Call) :
    (session.after later).IsStale generation := by
  induction later generalizing session with
  | nil => exact h
  | cons call later ih => exact ih (h.perform call)

/-- After another load, or a reset, the document of a generation is gone for good. -/
theorem isStale_after (session : Session) {generation : Int} (hle : generation ≤ session.generation)
    {later : List Call} (hturns : ∃ call ∈ later, call.turns = true) : (session.after later).IsStale generation := by
  induction later generalizing session with
  | nil =>
      obtain ⟨call, hcall, -⟩ := hturns
      cases hcall
  | cons call later ih =>
      cases hcall : call.turns with
      | true => exact (isStale_of_turns hle hcall).after later
      | false =>
          obtain ⟨other, hother, hturn⟩ := hturns
          rcases List.mem_cons.1 hother with rfl | hother
          · rw [hcall] at hturn
            cases hturn
          · refine ih (session.perform call).1 ?_ ⟨other, hother, hturn⟩
            rcases session.perform_cases hcall with hsame | ⟨state, message, -, hstep⟩
            · rwa [hsame]
            · rwa [hstep]

/-! ## Late documents -/

theorem deadline?_eq_some_iff {allowed : Double} :
    session.deadline? = some allowed ↔ session.watchdog = some allowed ∧ allowed.isZero = false := by
  rw [deadline?, Option.filter_eq_some_iff, Bool.not_eq_true']

section Watchdog

variable {calls : List Call}
  (hwatchdog : ∀ allowed, first.watchdog = some allowed → (Double.ofInt 0).le allowed = true)
include hwatchdog

theorem Tracks.fires_iff (h : session.Tracks first calls) (now : Double) :
    (session.checkWatchdog now).2 = true ↔
      ∃ allowed started, first.watchdog = some allowed ∧ (Double.ofInt 0).lt allowed = true ∧
        session.state = .compiling ∧ (calls.filterMap Call.loadTime?).getLast? = some started ∧
        (now.sub started).lt allowed = false := by
  have hlate : (session.checkWatchdog now).2 = true ↔ session.IsLate now := by
    rcases session.checkWatchdog_cases now with ⟨hlate, hcheck⟩ | ⟨hlate, message, hcheck⟩ <;>
      simp [hcheck, hlate]
  rw [hlate]
  constructor
  · rintro ⟨hstate, allowed, started, hallowed, hstarted, hover⟩
    obtain ⟨hset, hnonzero⟩ := deadline?_eq_some_iff.1 hallowed
    rw [h.watchdog] at hset
    exact ⟨allowed, started, hset, (Double.zero_lt_iff (hwatchdog allowed hset)).2 hnonzero, hstate,
      by rw [← h.started hstate, hstarted], hover⟩
  · rintro ⟨allowed, started, hset, hpositive, hstate, hstarted, hover⟩
    have hnonzero := (Double.zero_lt_iff (hwatchdog allowed hset)).1 hpositive
    rw [← h.watchdog] at hset
    exact ⟨hstate, allowed, started, deadline?_eq_some_iff.2 ⟨hset, hnonzero⟩,
      by rw [h.started hstate, hstarted], hover⟩

/-- For finite readings of the clock, the time is over when it is at least the time allowed. -/
theorem Tracks.elapsed_iff (h : session.Tracks first calls) (now started : Double)
    (hstarted : (calls.filterMap Call.loadTime?).getLast? = some started) (hnow : now.isFinite = true)
    (hfinite : started.isFinite = true) :
    (session.checkWatchdog now).2 = true ↔
      ∃ allowed, first.watchdog = some allowed ∧ (Double.ofInt 0).lt allowed = true ∧
        session.state = .compiling ∧ allowed.le (now.sub started) = true := by
  have hover {allowed : Double} (hset : first.watchdog = some allowed) :
      allowed.le (now.sub started) = true ↔ (now.sub started).lt allowed = false :=
    Double.le_iff_not_lt (Double.ne_notANumber_of_le (hwatchdog allowed hset)).2
      (Double.unpacked_sub_ne hnow hfinite)
  rw [h.fires_iff hwatchdog, hstarted]
  constructor
  · rintro ⟨allowed, _, hset, hpositive, hstate, ⟨⟩, hlate⟩
    exact ⟨allowed, hset, hpositive, hstate, (hover hset).2 hlate⟩
  · rintro ⟨allowed, hset, hpositive, hstate, hlate⟩
    exact ⟨allowed, started, hset, hpositive, hstate, rfl, (hover hset).1 hlate⟩

end Watchdog

/-- Only a document that is being compiled fails for being late, and only a load brings one. -/
theorem firing_step (session : Session) (call : Call) :
    (if call.isWatch && (session.perform call).2 == some true then 1 else 0) +
        (if (session.perform call).1.state = .compiling then 1 else 0) ≤
      (if session.state = .compiling then 1 else 0) + if call.isLoad then 1 else 0 := by
  cases call with
  | load now source =>
      have hstate : (session.perform (.load now source)).1.state = .compiling := rfl
      simp [Call.isWatch, Call.isLoad, Call.loadTime?, hstate]
  | reset =>
      have hstate : (session.perform .reset).1.state = .idle := rfl
      simp [Call.isWatch, hstate]
  | report generation label message =>
      rcases session.report_cases generation label message with hnone | ⟨state, -, hadmits, hreport⟩
      · simp [Call.isWatch, perform, hnone]
      · simp [Call.isWatch, perform, hreport, (State.not_quiet_of_admits hadmits).2]
  | checkWatchdog now =>
      rcases session.checkWatchdog_cases now with ⟨-, hnone⟩ | ⟨hlate, message, hcheck⟩
      · simp [perform, hnone]
      · simp [perform, hcheck, Call.isWatch, hlate.1]

/-- A document fails for being late at most once, and only after it was loaded. -/
theorem firings_le (session : Session) (calls : List Call) :
    session.firings calls ≤ (if session.state = .compiling then 1 else 0) + calls.countP Call.isLoad := by
  induction calls generalizing session with
  | nil => simp [firings]
  | cons call calls ih =>
      -- A document that is being compiled is a credit: a load brings it, and failing spends it.
      have hfirst := session.firing_step call
      have hrest := ih (session.perform call).1
      rw [List.countP_cons]
      simp only [firings]
      omega

/-! ## Any calls on a new session -/

/-- What any calls on a new session come to. -/
structure Lifecycle (first : Session) (calls : List Call) : Prop where
  generation : (first.after calls).generation = calls.countP Call.isLoad
  quiet : (first.after calls).state = .idle ∨ (first.after calls).state = .compiling →
    (first.after calls).message = ""
  /-- A report that changes the session is of the current generation. -/
  current (generation : Int) (label message : String) :
    ((first.after calls).report generation label message).1 ≠ first.after calls →
      generation = (first.after calls).generation
  /-- A report or a check says that it changed the session exactly when it changed its state. -/
  answer (call : Call) : call.turns = false → ∃ changed,
    ((first.after calls).perform call).2 = some changed ∧
      (changed = true ↔ ((first.after calls).perform call).1.state ≠ (first.after calls).state) ∧
      (changed = false → ((first.after calls).perform call).1 = first.after calls)
  /-- The successive states since a load. -/
  loaded (earlier : List Call) (now : Double) (source : Json) (later : List Call) :
    calls = earlier ++ .load now source :: later → (∀ call ∈ later, call.turns = false) →
      ∃ course ∈ [[State.compiling, .mounted, .runtimeError], [.compiling, .compileError],
          [.compiling, .runtimeError]],
        ((first.after (earlier ++ [.load now source])).states later).destutter (· ≠ ·) <+: course
  /-- The states since a reset. -/
  dropped (earlier later : List Call) :
    calls = earlier ++ .reset :: later → (∀ call ∈ later, call.turns = false) →
      ∀ state ∈ (first.after (earlier ++ [.reset])).states later, state = .idle
  /-- A failed document stays until the next load or reset. -/
  failed : (first.after calls).state = .compileError ∨ (first.after calls).state = .runtimeError →
    ∀ call : Call, call.turns = false → ((first.after calls).perform call).1 = first.after calls
  /-- What a document reports that was loaded before another load or a reset changes nothing. -/
  replaced (earlier : List Call) (now : Double) (source : Json) (later : List Call) :
    calls = earlier ++ .load now source :: later → (∃ call ∈ later, call.turns = true) →
      ∀ label message, (first.after calls).report
        (first.after (earlier ++ [.load now source])).generation label message =
          (first.after calls, false)
  /-- A check fails a document when the time allowed is positive, and over since the last load. -/
  fires (now : Double) : ((first.after calls).checkWatchdog now).2 = true ↔
    ∃ allowed started, first.watchdog = some allowed ∧ (Double.ofInt 0).lt allowed = true ∧
      (first.after calls).state = .compiling ∧
      (calls.filterMap Call.loadTime?).getLast? = some started ∧ (now.sub started).lt allowed = false
  /-- For finite readings of the clock, when the time since the last load is at least the time allowed. -/
  elapsed (now started : Double) : (calls.filterMap Call.loadTime?).getLast? = some started →
    now.isFinite = true → started.isFinite = true →
      (((first.after calls).checkWatchdog now).2 = true ↔
        ∃ allowed, first.watchdog = some allowed ∧ (Double.ofInt 0).lt allowed = true ∧
          (first.after calls).state = .compiling ∧ allowed.le (now.sub started) = true)
  /-- A document fails for being late at most once. -/
  once (earlier : List Call) (now : Double) (source : Json) (later : List Call) :
    calls = earlier ++ .load now source :: later → (∀ call ∈ later, call.isLoad = false) →
      (first.after (earlier ++ [.load now source])).firings later ≤ 1
  /-- No more documents fail for being late than were loaded. -/
  firings : first.firings calls ≤ calls.countP Call.isLoad

/--
For every timeout that is absent or not negative, and for any calls with any arguments, a new session lives as
the documents that are loaded into it do.
-/
theorem lifecycle_of_new (watchdog : Option Double)
    (hwatchdog : ∀ allowed, watchdog = some allowed → (Double.ofInt 0).le allowed = true)
    (calls : List Call) : Lifecycle { watchdog := watchdog } calls := by
  have htracks := @tracks_after { watchdog := watchdog } rfl rfl calls
  refine ⟨?_, htracks.quiet, report_current _, fun _ => perform_answer _, ?_, ?_, ?_, ?_,
    htracks.fires_iff hwatchdog, htracks.elapsed_iff hwatchdog, ?_, ?_⟩
  · rw [htracks.generation]
    exact Int.zero_add _
  · intro earlier now source later _ hlater
    rw [after_concat]
    exact states_of_load _ now source hlater
  · intro earlier later _ hlater
    rw [after_concat]
    exact states_stay (fun next => by cases next <;> rfl) hlater
  · intro hstate call hcall
    refine stays (fun next => ?_) hcall
    rcases hstate with hstate | hstate <;> rw [hstate] <;> rfl
  · rintro earlier now source later rfl hturns label message
    have hstale := isStale_after (({ watchdog := watchdog } : Session).after (earlier ++ [.load now source]))
      (Int.le_refl _) hturns
    rw [← after_append, List.append_assoc] at hstale
    exact hstale.report label message
  · intro earlier now source later _ hlater
    have hnone : later.countP Call.isLoad = 0 :=
      List.countP_eq_zero.2 fun call hcall => by simp [hlater call hcall]
    have hle := firings_le (({ watchdog := watchdog } : Session).after (earlier ++ [.load now source])) later
    rw [hnone, after_concat] at hle
    rw [after_concat]
    exact hle
  · have hle := firings_le { watchdog := watchdog } calls
    simpa using hle

/-- A document that is late, a report of it that comes too late, and a second document. -/
theorem lifecycle_of_new_late :
    let watchdog : Option Double := some (Double.ofInt 5)
    let calls : List Call := [.load (Double.ofInt 100) (.str "a"), .checkWatchdog (Double.ofInt 105),
      .report 1 "mounted" "", .load (Double.ofInt 110) (.str "b")]
    (∀ allowed, watchdog = some allowed → (Double.ofInt 0).le allowed = true) ∧
      Lifecycle { watchdog := watchdog } calls ∧
      ({ watchdog := watchdog } : Session).firings calls = 1 := by
  intro watchdog calls
  have hwatchdog : ∀ allowed, watchdog = some allowed → (Double.ofInt 0).le allowed = true := by
    intro allowed hallowed
    obtain rfl : Double.ofInt 5 = allowed := Option.some.inj hallowed
    decide +kernel
  exact ⟨hwatchdog, lifecycle_of_new watchdog hwatchdog calls, by decide +kernel⟩

end Session

end ComponentBuilder.Preview
