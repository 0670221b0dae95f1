import Mathlib.Data.List.Induction
import Mathlib.Logic.Function.Basic
import Mymuduo.Lib.Runs

/-! # The logger

`LOG_INFO`, `LOG_ERROR` and `LOG_FATAL` each set the level of the one `Logger` and then have
it print a line, two calls with nothing to keep another thread's two apart.  `LoggerSystem`
runs any number of threads over that logger, each through its own list of logging statements;
a step is one call of one of them, so that a schedule is any interleaving.

The level a line is printed with is the level set last, by whatever thread
(`Inv.level`).  It is the statement's own exactly where no other thread has set another one
since, or the last that did set the same (`own_level_iff`).

As in the source, a text is a sequence of bytes: a `Char` stands for one of them.
-/
namespace Mymuduo
open Transition

inductive LogLevel where
  | INFO
  | ERROR
  | FATAL
  | DEBUG
deriving DecidableEq, Repr

/-- The value of the enumerator. -/
def LogLevel.toInt : LogLevel → Int
  | .INFO => 0
  | .ERROR => 1
  | .FATAL => 2
  | .DEBUG => 3

structure Logger where
  logLevel_ : Int
deriving DecidableEq, Repr

namespace Logger

/-- The instance, before anything was logged: its storage is static, so it starts as zero. -/
def getInstance : Logger := ⟨0⟩

def setLogLevel (_ : Logger) (level : Int) : Logger := ⟨level⟩

/-- What the `switch` of `log` prints. -/
def levelText : Int → String
  | 0 => "[INFO]"
  | 1 => "[ERROR]"
  | 2 => "[FATAL]"
  | 3 => "[DEBUG]"
  | _ => ""

/-- The line `log` prints; `now` is `Timestamp::now().toString()`. -/
def log (l : Logger) (now msg : String) : String :=
  levelText l.logLevel_ ++ (now ++ " : " ++ msg ++ "\n")

/-- `snprintf(buf, 1024, ..)` of a text already formatted: its first 1023 bytes. -/
def snprintf (text : String) : String := String.ofList (text.toList.take 1023)

/-- No level's text begins as another's does. -/
theorem levelText_prefix_iff (level level' : LogLevel) (rest : String) :
    (levelText level.toInt).toList <+: (levelText level'.toInt ++ rest).toList ↔
      level = level' := by
  constructor
  · cases level <;> cases level' <;>
      simp [LogLevel.toInt, levelText, List.cons_prefix_cons]
  · rintro rfl
    simp

end Logger

/-- A logging statement: its level, and its message once formatted. -/
structure LogStatement where
  level : LogLevel
  text : String
deriving DecidableEq, Repr

/-- Where a thread stands. -/
inductive LogPc where
  | between
  /-- `setLogLevel` has returned, `log` is not called yet. -/
  | logging (st : LogStatement)
  /-- Before the `exit(-1)` of `LOG_FATAL`. -/
  | exiting
deriving DecidableEq, Repr

/-- What happened: a level set, a line printed, the end of the process. -/
inductive LogEvent (τ : Type*) where
  | setLogLevel (t : τ) (level : LogLevel)
  | line (t : τ) (st : LogStatement) (text : String)
  | exit (t : τ)
deriving DecidableEq, Repr

namespace LogEvent
variable {τ : Type*}

/-- The level the event sets. -/
def set? : LogEvent τ → Option LogLevel
  | setLogLevel _ level => some level
  | _ => none

/-- The level set last. -/
def lastSet (tr : List (LogEvent τ)) : Option LogLevel := (tr.filterMap set?).getLast?

/-- Every line begins with the level of its statement. -/
def OwnLevel (tr : List (LogEvent τ)) : Prop :=
  ∀ t st text, line t st text ∈ tr →
    (Logger.levelText st.level.toInt).toList <+: text.toList

/-- Where a line is printed, the level set last, by whatever thread, is that of its
statement. -/
def Undisturbed (tr : List (LogEvent τ)) : Prop :=
  ∀ pre t st text, pre ++ [line t st text] <+: tr → lastSet pre = some st.level

/-- Every line begins with the level set last. -/
def Recorded (tr : List (LogEvent τ)) : Prop :=
  ∀ pre t st text, pre ++ [line t st text] <+: tr →
    ∃ level rest, lastSet pre = some level ∧ text = Logger.levelText level.toInt ++ rest

variable {tr : List (LogEvent τ)}

theorem lastSet_concat (e : LogEvent τ) : lastSet (tr ++ [e]) = e.set?.or (lastSet tr) := by
  cases e <;> simp [lastSet, set?]

theorem Recorded.concat (h : Recorded tr) {e : LogEvent τ}
    (he : ∀ t st text, e = line t st text →
      ∃ level rest, lastSet tr = some level ∧ text = Logger.levelText level.toInt ++ rest) :
    Recorded (tr ++ [e]) := by
  intro pre t st text hpre
  rcases List.prefix_concat_iff.mp hpre with heq | hpre
  · obtain ⟨rfl, hline⟩ := List.append_inj' heq rfl
    exact he t st text (List.singleton_inj.mp hline).symm
  · exact h pre t st text hpre

/-- **A line carries its own level exactly if that level was set last.** -/
theorem Recorded.ownLevel_iff (h : Recorded tr) : OwnLevel tr ↔ Undisturbed tr := by
  constructor
  · intro hown pre t st text hpre
    obtain ⟨level, rest, hlast, rfl⟩ := h pre t st text hpre
    have hmem := hpre.subset (List.mem_append_right pre (List.mem_singleton.mpr rfl))
    rw [hlast, (Logger.levelText_prefix_iff _ _ _).mp (hown t st _ hmem)]
  · intro hlast t st text hmem
    obtain ⟨pre, post, rfl⟩ := List.append_of_mem hmem
    have hpre : pre ++ [line t st text] <+: pre ++ line t st text :: post := ⟨post, by simp⟩
    obtain ⟨level, rest, hlevel, rfl⟩ := h pre t st text hpre
    have heq : st.level = level := Option.some.inj ((hlast pre t st _ hpre).symm.trans hlevel)
    exact (Logger.levelText_prefix_iff _ _ _).mpr heq

end LogEvent

/-- The threads of a process, and the logger they share. -/
structure LoggerSystem (τ : Type*) where
  logger : Logger
  /-- The statements each thread has still to execute. -/
  todo : τ → List LogStatement
  pc : τ → LogPc
  exited : Bool
  trace : List (LogEvent τ)

namespace LoggerSystem
variable {τ : Type*} [DecidableEq τ]

def start (programs : τ → List LogStatement) : LoggerSystem τ where
  logger := Logger.getInstance
  todo := programs
  pc := fun _ => .between
  exited := false
  trace := []

/-- The next call of thread `t`; `now` is the time it would print. -/
def exec (s : LoggerSystem τ) : τ × String → LoggerSystem τ
  | (t, now) =>
    if s.exited then s
    else
      match s.pc t with
      | .between =>
        match s.todo t with
        | [] => s
        | st :: rest =>
          { s with
            logger := s.logger.setLogLevel st.level.toInt
            todo := Function.update s.todo t rest
            pc := Function.update s.pc t (.logging st)
            trace := s.trace ++ [.setLogLevel t st.level] }
      | .logging st =>
        { s with
          pc := Function.update s.pc t (if st.level = .FATAL then .exiting else .between)
          trace := s.trace ++ [.line t st (s.logger.log now (Logger.snprintf st.text))] }
      | .exiting => { s with exited := true, trace := s.trace ++ [.exit t] }

/-- The logger holds the level set last, and every line was printed with it. -/
structure Inv (s : LoggerSystem τ) : Prop where
  level : ∀ level, LogEvent.lastSet s.trace = some level → s.logger.logLevel_ = level.toInt
  logging : ∀ t st, s.pc t = .logging st → (LogEvent.lastSet s.trace).isSome = true
  lines : LogEvent.Recorded s.trace

omit [DecidableEq τ] in
theorem start_inv (programs : τ → List LogStatement) : (start programs).Inv := by
  refine ⟨?_, ?_, ?_⟩
  · intro level h
    cases h
  · intro t st h
    cases h
  · intro pre t st text h
    simp [start] at h

variable {s : LoggerSystem τ} {t : τ} {st : LogStatement} {now : String}

/-- The first call of a statement. -/
theorem Inv.setLogLevel (h : s.Inv) (rest : List LogStatement) :
    Inv { s with
      logger := s.logger.setLogLevel st.level.toInt
      todo := Function.update s.todo t rest
      pc := Function.update s.pc t (.logging st)
      trace := s.trace ++ [.setLogLevel t st.level] } := by
  have hlast : LogEvent.lastSet (s.trace ++ [.setLogLevel t st.level]) = some st.level :=
    LogEvent.lastSet_concat _
  refine ⟨fun level hlevel => ?_, fun t' st' _ => ?_, h.lines.concat (by simp)⟩
  · obtain rfl : st.level = level := Option.some.inj (hlast.symm.trans hlevel)
    rfl
  · rw [hlast]
    rfl

/-- The second call. -/
theorem Inv.log (h : s.Inv) (hpc : s.pc t = .logging st) (next : LogPc)
    (hnext : ∀ st', next ≠ .logging st') :
    Inv { s with
      pc := Function.update s.pc t next
      trace := s.trace ++ [.line t st (s.logger.log now (Logger.snprintf st.text))] } := by
  have hlast : ∀ text, LogEvent.lastSet (s.trace ++ [.line t st text]) =
      LogEvent.lastSet s.trace := fun text => LogEvent.lastSet_concat _
  refine ⟨fun level hlevel => h.level level ((hlast _).symm.trans hlevel),
    fun t' st' ht' => ?_, h.lines.concat ?_⟩
  · rw [hlast]
    by_cases ht : t' = t
    · subst ht
      exact absurd ((Function.update_self ..).symm.trans ht') (hnext st')
    · exact h.logging t' st' ((Function.update_of_ne ht ..).symm.trans ht')
  · rintro t' st' text heq
    obtain ⟨rfl, rfl, rfl⟩ := LogEvent.line.inj heq
    obtain ⟨level, hlevel⟩ := Option.isSome_iff_exists.mp (h.logging t st hpc)
    exact ⟨level, _, hlevel, by rw [Logger.log, h.level level hlevel]⟩

theorem Inv.exec (h : s.Inv) (x : τ × String) : (s.exec x).Inv := by
  obtain ⟨t, now⟩ := x
  unfold LoggerSystem.exec
  simp only
  split
  · exact h
  · split
    · split
      · exact h
      · exact h.setLogLevel _
    · rename_i st hpc
      refine h.log hpc _ fun st' => ?_
      split <;> simp
    · have hlast : LogEvent.lastSet (s.trace ++ [.exit t]) = LogEvent.lastSet s.trace :=
        LogEvent.lastSet_concat _
      exact ⟨fun level hlevel => h.level level (hlast.symm.trans hlevel),
        fun t' st ht' => hlast ▸ h.logging t' st ht', h.lines.concat (by simp)⟩

/-- **Lines carry their own level**, for any threads, programs and interleaving, exactly if
at every `log` the last `setLogLevel` of any thread was for the level of the statement. -/
theorem own_level_iff (programs : τ → List LogStatement) (as : List (τ × String)) :
    LogEvent.OwnLevel (as.foldl exec (start programs)).trace ↔
      LogEvent.Undisturbed (as.foldl exec (start programs)).trace := by
  have hinv : (as.foldl exec (start programs)).Inv :=
    invariant (start_inv programs) (fun _ x _ h => h.exec x) as fun _ _ => trivial
  exact hinv.lines.ownLevel_iff

/-- Two threads, each with one statement, one setting its level between the two calls of the
other: the information is printed as an error. -/
theorem own_level_lost :
    let programs : Bool → List LogStatement :=
      fun b => if b then [⟨.ERROR, "no route"⟩] else [⟨.INFO, "started"⟩]
    let s := [(false, "noon"), (true, "noon"), (false, "noon")].foldl exec (start programs)
    s.trace = [.setLogLevel false .INFO, .setLogLevel true .ERROR,
      .line false ⟨.INFO, "started"⟩ "[ERROR]noon : started\n"] ∧ ¬ LogEvent.OwnLevel s.trace := by
  intro programs s
  have htrace : s.trace = [.setLogLevel false .INFO, .setLogLevel true .ERROR,
      .line false ⟨.INFO, "started"⟩ "[ERROR]noon : started\n"] := by decide
  refine ⟨htrace, fun h => ?_⟩
  have hline := h false ⟨.INFO, "started"⟩ "[ERROR]noon : started\n" (by rw [htrace]; simp)
  exact absurd hline (by decide)

end LoggerSystem
end Mymuduo
