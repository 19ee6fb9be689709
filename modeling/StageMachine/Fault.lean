import StageMachine.Text.Raw

/-! Everything that can stop an operation, by cause, and the sentence that is shown for it. -/
namespace StageMachine

/-- Why a date or a time of day does not exist. -/
inductive TimeFault where
  | year (year : Nat)
  | month | day | hour | minute | second
  /-- The distance from universal time, in minutes, is a day or more. -/
  | offset (minutes : Int)
  deriving DecidableEq, Repr

/-- The length of a time in minutes, by days and seconds; the days take the sign. -/
def durationText (minutes : Int) : Text :=
  let days := minutes / 1440
  let seconds := minutes % 1440 * 60
  let parts := (if days = 0 then [] else [s!"days={days}".toList]) ++
    (if seconds = 0 then [] else [s!"seconds={seconds}".toList])
  "datetime.timedelta(".toList ++
    (if parts.isEmpty then ['0'] else Text.joined [',', ' '] parts) ++ [')']

def TimeFault.message : TimeFault → Text
  | year y => s!"year {y} is out of range".toList
  | month => "month must be in 1..12".toList
  | day => "day is out of range for month".toList
  | hour => "hour must be in 0..23".toList
  | minute => "minute must be in 0..59".toList
  | second => "second must be in 0..59".toList
  | offset minutes =>
    "offset must be a timedelta strictly between -timedelta(hours=24) and timedelta(hours=24), not ".toList ++
      durationText minutes ++ ['.']

/-- Why an operation stopped. -/
inductive Fault where
  /-- A numeral is no number of its base. -/
  | notNumeral (base : Nat) (numeral : RawText)
  /-- A decimal numeral has more digits than are read. -/
  | numeralTooLong (digits : Nat)
  /-- A number has more decimal digits than are written. -/
  | numberTooLong
  /-- A value of a configuration stands where an integer is needed. -/
  | notInteger (shown : Text)
  /-- A bit field cannot have a negative width. -/
  | negativeShift
  /-- A bit field was given no width. -/
  | noWidth
  /-- A mask or a text has more places than can be counted. -/
  | tooManyPlaces
  /-- There is no memory for a mask or a text of this length. -/
  | noRoom
  /-- A number was to be written with more places than a text can have. -/
  | textTooLong
  /-- An instruction word has the wrong length. -/
  | wordLength (word : Text)
  /-- An instruction word ends before the bits that control the machine. -/
  | shortWord
  /-- A register width is zero or negative. -/
  | widthNotPositive
  /-- A history cannot hold a negative number of states. -/
  | negativeHistory
  /-- A history limit beyond what can be counted, on either side of zero. -/
  | historyTooLarge
  /-- There is no waiting time where one is needed. -/
  | noInterval
  /-- A run was asked to wait a negative time. -/
  | negativeRunInterval (interval : Int)
  /-- The clock was asked to tick after a negative time. -/
  | negativeClockInterval (interval : Int)
  /-- An integer beyond the range of floating point numbers. -/
  | beyondFloat
  /-- A run took more turns than it was allowed, or has no end. -/
  | unfinished
  /-- Steps within steps, or parts of a document within parts, nest too deep. -/
  | nestingTooDeep
  /-- A register that does not exist was written to. -/
  | noSuchRegister
  /-- A place that no state was saved to. -/
  | nothingSaved
  /-- A configuration that is not a mapping at its root. -/
  | rootNotMapping (kind : Text)
  /-- A section of a configuration that is not a mapping. -/
  | sectionNotMapping
  /-- A path that is not a text. -/
  | pathNotText
  /-- A number in place of a path counts open files, and no file of that number is open. -/
  | notOpen
  /-- A negative number in place of a path. -/
  | negativeFileNumber
  /-- A document that breaks the rules of its notation. -/
  | malformedDocument
  /-- A number in a document is no code point. -/
  | noCodePoint
  /-- A number in a document is so large that it is not even compared with the code points. -/
  | codePointTooLarge
  /-- A date or a time of day that does not exist. -/
  | noSuchTime (reason : TimeFault)
  /-- No file has this path. -/
  | missingFile (path : RawText)
  /-- The path goes through a file as if it were a directory. -/
  | notDirectory
  /-- The path names a directory. -/
  | isDirectory
  /-- A path, or a name in it, is longer than a file system takes. -/
  | pathTooLong
  /-- A path with a code point that no path can hold. -/
  | nulInPath
  /-- A path with a half of a surrogate pair that stands for no byte. -/
  | pathNotEncodable
  /-- Bytes that are no text. -/
  | notUtf8
  /-- A level of detail that does not exist. -/
  | unknownLevel (level : Text)
  /-- An option of the command line that needs a number was given nothing. -/
  | emptyNumber
  /-- The level of detail was given as nothing. -/
  | emptyLevel
  deriving DecidableEq, Repr

/-- The sentence shown for a fault; empty where the cause alone is reported. -/
def Fault.message : Fault → Text
  | .notNumeral base numeral =>
    s!"invalid literal for int() with base {base}: ".toList ++ numeral.quoted.take 200
  | .numeralTooLong digits =>
    s!"Exceeds the limit (4300 digits) for integer string conversion: value has {digits} digits; use sys.set_int_max_str_digits() to increase the limit".toList
  | .numberTooLong =>
    "Exceeds the limit (4300 digits) for integer string conversion; use sys.set_int_max_str_digits() to increase the limit".toList
  | .notInteger shown => "Invalid integer format: ".toList ++ shown
  | .negativeShift => "negative shift count".toList
  | .textTooLong => "Too many decimal digits in format string".toList
  | .wordLength word => "Instruction word must be 16 bits: ".toList ++ Text.quoted word
  | .widthNotPositive => "register_width must be a positive integer or None.".toList
  | .negativeHistory => "maxlen must be non-negative".toList
  | .negativeRunInterval interval => s!"Run interval must not be negative: {interval}".toList
  | .negativeClockInterval interval => s!"Clock interval must not be negative: {interval}".toList
  | .rootNotMapping kind => "Config root must be a mapping, got ".toList ++ kind
  | .missingFile path => "[Errno 2] No such file or directory: ".toList ++ path.quoted
  | .negativeFileNumber => "negative file descriptor".toList
  | .noCodePoint => "chr() arg not in range(0x110000)".toList
  | .noSuchTime reason => reason.message
  | .nulInPath => "embedded null byte".toList
  | .unknownLevel level => "Unknown level: ".toList ++ Text.quoted level
  | _ => []

end StageMachine
