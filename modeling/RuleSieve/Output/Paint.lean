/-
  Colours of a terminal.
-/
import RuleSieve.Text.Find

namespace RuleSieve

/-- Ways to set off a text. -/
inductive Paint where
  | bold
  | underline
  | red
  | green
  | yellow
  | blue
  | cyan
  | boldRed
  | boldGreen
  | boldYellow
  deriving Repr, DecidableEq

namespace Paint

/-- The code that a terminal knows it by. -/
def code : Paint → String
  | .bold => "1"
  | .underline => "4"
  | .red => "31"
  | .green => "32"
  | .yellow => "33"
  | .blue => "34"
  | .cyan => "36"
  | .boldRed => "1;31"
  | .boldGreen => "1;32"
  | .boldYellow => "1;33"

/-- What a terminal is sent to begin painting. -/
def start (paint : Paint) : List Char := '\x1b' :: '[' :: paint.code.toList ++ ['m']

/-- What a terminal is sent to end all painting. -/
def stop : List Char := ['\x1b', '[', '0', 'm']

/-- The text in colour.  Where painting ends inside the text it begins again. -/
def apply (paint : Paint) (text : String) : String :=
  String.ofList (paint.start ++ Text.replaceAll stop (stop ++ paint.start) text.toList ++ stop)

/-- The text in colour, if colours are on. -/
def when (on : Bool) (paint : Paint) (text : String) : String :=
  if on then paint.apply text else text

/-! ## Whether colours are on -/

/-- Is a switch on?  One that is set at all is on, unless it is set to zero. -/
def isOn (switch : Option String) : Bool := switch.any (· != "0")

/-- Are colours on, given what the environment says of `NO_COLOR`, `CLICOLOR` and `CLICOLOR_FORCE`, and
    whether the output is a terminal? -/
def enabled (noColor clicolor force : Option String) (terminal : Bool) : Bool :=
  isOn force || (noColor.isNone && terminal && isOn (clicolor <|> some "1"))

end Paint

end RuleSieve
