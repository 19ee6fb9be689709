import StageMachine.Numeral.Basic

/-! What is noted along the way. A computation reports an outcome and, in order, the remarks it made
before that outcome was known; a fault does not take back the remarks. -/
namespace StageMachine

/-- How much a remark matters. -/
inductive Level where
  | debug | info | warning | error | critical
  deriving DecidableEq, Repr

/-- The rank of a level; a reader asks for all remarks from some rank up. -/
def Level.rank : Level → Nat
  | .debug => 10
  | .info => 20
  | .warning => 30
  | .error => 40
  | .critical => 50

def Level.name : Level → Text
  | .debug => "DEBUG".toList
  | .info => "INFO".toList
  | .warning => "WARNING".toList
  | .error => "ERROR".toList
  | .critical => "CRITICAL".toList

/-- Something worth noting, by cause. -/
inductive Remark where
  /-- A line with nothing before its comment became an empty instruction. -/
  | noTokens (line : Nat)
  /-- A mnemonic that names no instruction. -/
  | unknownMnemonic (line : Nat) (mnemonic : Text)
  /-- An instruction ends before a register operand. -/
  | missingRegister (line operand : Nat)
  /-- An instruction ends before a numeric operand. -/
  | missingNumber (line operand : Nat)
  /-- An operand that names no register. -/
  | malformedRegister (line : Nat) (token : Text)
  /-- A register number outside of the register file, reduced to one inside. -/
  | reducedRegister (line : Nat) (token : Text) (register : Int)
  /-- An operand that starts with no number. -/
  | malformedNumber (line : Nat) (token : Text)
  /-- A program was put into the machine. -/
  | loaded (count : Nat)
  /-- A result was meant for a register that does not exist. -/
  | ignoredWrite (register : Int)
  /-- The machine was asked to step past the end of its program. -/
  | complete (pc : Int)
  /-- A run came to the end of the program. -/
  | completeAfter (steps : Nat)
  /-- A run met a breakpoint. -/
  | breakpointHit (pc : Int)
  /-- A configuration has an entry that nothing reads. Its key may be one that cannot be written. -/
  | unknownSetting (key : Option RawText)
  /-- An initial value is meant for a register that does not exist. -/
  | unknownRegister (name : RawText)
  deriving DecidableEq, Repr

namespace Remark

def level : Remark → Level
  | complete _ | completeAfter _ | breakpointHit _ => .info
  | unknownSetting _ | unknownRegister _ => .warning
  | _ => .debug

def origin : Remark → Text
  | loaded _ | completeAfter _ | breakpointHit _ => "nexus_core.debugger.debugger".toList
  | ignoredWrite _ | complete _ => "nexus_core.core.cpu".toList
  | unknownSetting _ => "nexus_core.config.loader".toList
  | unknownRegister _ => "nexus_core.config.builder".toList
  | _ => "nexus_core.loader.assembler".toList

/-- An integer in decimal digits, unless it has too many of them. -/
def written? (v : Int) : Option Text := (Numeral.decimal v).toOption

/-- The words of a remark that names nothing from a configuration, if all numbers in it can be written. -/
def words? : Remark → Option Text
  | noTokens line => some s!"Line {line}: no tokens, encoded as an empty instruction".toList
  | unknownMnemonic line mnemonic =>
    some (s!"Line {line}: unknown mnemonic ".toList ++ mnemonic.quoted ++ " encoded as NOP".toList)
  | missingRegister line operand =>
    some s!"Line {line}: missing register operand {operand}, using R0".toList
  | missingNumber line operand =>
    some s!"Line {line}: missing numeric operand {operand}, using 0".toList
  | malformedRegister line token =>
    some (s!"Line {line}: malformed register ".toList ++ token.quoted ++ ", using R0".toList)
  | reducedRegister line token register =>
    some (s!"Line {line}: register ".toList ++ token.quoted ++ s!" reduced to R{register}".toList)
  | malformedNumber line token =>
    some (s!"Line {line}: malformed number ".toList ++ token.quoted ++ ", using 0".toList)
  | loaded count => some s!"Loaded {count} instructions".toList
  | ignoredWrite register =>
    (written? register).map ("Ignoring write to out-of-range register R".toList ++ ·)
  | complete pc => (written? pc).map ("Program complete at PC=".toList ++ ·)
  | completeAfter steps => some s!"Program complete after {steps} stage steps".toList
  | breakpointHit pc => (written? pc).map ("Breakpoint hit at PC: ".toList ++ ·)
  | unknownSetting _ | unknownRegister _ => none

def message? : Remark → Option RawText
  | unknownSetting key =>
    key.map fun key => Text.raw "Ignoring unknown config key '".toList ++ key ++ Text.raw ['\'']
  | unknownRegister name =>
    some (Text.raw "Unknown register '".toList ++ name ++ Text.raw "' in initial state, ignored".toList)
  | r => r.words?.map Text.raw

/-- A line of the log. A remark that cannot be put into words leaves no line. -/
def line? (r : Remark) : Option RawText :=
  r.message?.map fun words => Text.raw (r.level.name ++ ' ' :: r.origin ++ ": ".toList) ++ words

end Remark

/-- An outcome, and the remarks made on the way to it. -/
structure Report (α : Type) where
  remarks : List Remark := []
  outcome : Except Fault α

namespace Report

variable {α β : Type}

/-- Goes on with the outcome, unless it is a fault. -/
def bind (r : Report α) (next : α → Report β) : Report β :=
  match r.outcome with
  | .error fault => ⟨r.remarks, .error fault⟩
  | .ok value => ⟨r.remarks ++ (next value).remarks, (next value).outcome⟩

instance : Monad Report where
  pure value := ⟨[], .ok value⟩
  bind := bind

instance : MonadExceptOf Fault Report where
  throw fault := ⟨[], .error fault⟩
  tryCatch r handler :=
    match r.outcome with
    | .error fault => ⟨r.remarks ++ (handler fault).remarks, (handler fault).outcome⟩
    | .ok _ => r

instance : MonadLift (Except Fault) Report where
  monadLift outcome := ⟨[], outcome⟩

def note (remark : Remark) : Report Unit := ⟨[remark], .ok ()⟩

@[simp] theorem remarks_pure (value : α) : (pure value : Report α).remarks = [] := rfl

@[simp] theorem outcome_pure (value : α) : (pure value : Report α).outcome = .ok value := rfl

theorem bind_of_ok {r : Report α} {value : α} (h : r.outcome = .ok value)
    (next : α → Report β) :
    r >>= next = ⟨r.remarks ++ (next value).remarks, (next value).outcome⟩ := by
  show bind r next = _
  simp [bind, h]

theorem bind_of_error {r : Report α} {fault : Fault} (h : r.outcome = .error fault)
    (next : α → Report β) : r >>= next = ⟨r.remarks, .error fault⟩ := by
  show bind r next = _
  simp [bind, h]

end Report
end StageMachine
