import PacketSections.Lowering.Error
import PacketSections.Text.Escapes

/-!
Computations that keep a log, report diagnostics and may fail.

A failure ends the computation; what was logged and reported before stays.
-/

namespace PacketSections

inductive LogLevel where
  | warn
  | info
  | debug
  | trace
deriving DecidableEq, Repr

namespace LogLevel

/-- The name, in five columns. -/
def text : LogLevel → String
  | warn => "WARN "
  | info => "INFO "
  | debug => "DEBUG"
  | trace => "TRACE"

/-- Higher ranks are more detailed. -/
def rank : LogLevel → Nat
  | warn => 0
  | info => 1
  | debug => 2
  | trace => 3

end LogLevel

/-- What a log entry is about. -/
inductive Topic where
  | lowering
  | tuples
  | states
  | layouts
  | batch
deriving DecidableEq, Repr

namespace Topic

def text : Topic → String
  | lowering => "psdn_compiler::lower"
  | tuples => "psdn_compiler::lower::params"
  | states => "psdn_compiler::lower::states"
  | layouts => "psdn_compiler::oracle::render"
  | batch => "psdn::commands::run_common"

end Topic

structure LogEntry where
  level : LogLevel
  topic : Topic
  message : String
deriving DecidableEq, Repr

namespace LogEntry

/-- The entry as it is shown, with its line end; further lines of the message are indented, and
nothing in it controls the terminal. -/
def text (e : LogEntry) : String :=
  Text.withoutEscapes ("[" ++ e.level.text ++ " " ++ e.topic.text ++ "] " ++
    String.intercalate "\n    " (e.message.splitOn "\n") ++ "\n")

end LogEntry

structure Pass (α : Type) where
  log : List LogEntry
  diagnostics : List Diagnostic
  result : Except LowerError α

namespace Pass

variable {α β : Type}

def value (a : α) : Pass α := ⟨[], [], .ok a⟩

/-- One computation after the other. -/
def andThen (p : Pass α) (f : α → Pass β) : Pass β :=
  match p.result with
  | .error e => ⟨p.log, p.diagnostics, .error e⟩
  | .ok a =>
    let q := f a
    ⟨p.log ++ q.log, p.diagnostics ++ q.diagnostics, q.result⟩

instance : Monad Pass where
  pure := value
  bind := andThen

theorem bind_def (p : Pass α) (f : α → Pass β) : p >>= f = p.andThen f := rfl

theorem pure_def (a : α) : (pure a : Pass α) = value a := rfl

@[simp] theorem value_andThen (a : α) (f : α → Pass β) : (value a).andThen f = f a := by
  simp [value, andThen]

@[simp] theorem andThen_value (p : Pass α) : p.andThen value = p := by
  obtain ⟨log, diagnostics, result⟩ := p
  cases result <;> simp [andThen, value]

theorem andThen_assoc {γ : Type} (p : Pass α) (f : α → Pass β) (g : β → Pass γ) :
    (p.andThen f).andThen g = p.andThen fun a => (f a).andThen g := by
  obtain ⟨log, diagnostics, result⟩ := p
  cases result with
  | error e => rfl
  | ok a =>
    simp only [andThen]
    cases (f a).result <;> simp

instance : LawfulMonad Pass := LawfulMonad.mk' Pass
  (fun p => andThen_value p)
  (fun a f => value_andThen a f)
  (fun p f g => andThen_assoc p f g)

def note (level : LogLevel) (topic : Topic) (message : String) : Pass Unit :=
  ⟨[⟨level, topic, message⟩], [], .ok ()⟩

def report (d : Diagnostic) : Pass Unit := ⟨[], [d], .ok ()⟩

/-- Reports the error and fails. -/
def fail (e : LowerError) (span : Option Span) : Pass α := ⟨[], [e.diagnostic span], .error e⟩

/-- Fails with the error, if there is one. -/
def check (span : Option Span) : Except LowerError α → Pass α
  | .ok a => value a
  | .error e => fail e span

end Pass

end PacketSections
