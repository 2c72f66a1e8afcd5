import EventMachine.Settings

/-!
# Colours of the output

The environment asks for colours or for none by `CLICOLOR_FORCE`, `NO_COLOR` and `CLICOLOR`. In the
output of a command the first of them goes before the second, in the help the second before the
first.
-/

namespace EventMachine

/-- Whether the output is styled. -/
structure Style where
  styled : Bool
deriving DecidableEq

namespace Style

/-- Without colours. -/
def plain : Style := ⟨false⟩

/-- A terminal has colours unless the environment asks for none. -/
def ofTerminal (env : Environment) (terminal : Bool) : Style :=
  ⟨terminal && (env "CLICOLOR").all (· ≠ "0")⟩

/-- The style of what a command prints. -/
def ofEnvironment (env : Environment) (terminal : Bool) : Style :=
  if (env "CLICOLOR_FORCE").any (· ≠ "0") then ⟨true⟩
  else if (env "NO_COLOR").isSome then plain
  else ofTerminal env terminal

/-- The style of the help. A variable that is empty asks for nothing. -/
def ofHelp (env : Environment) (terminal : Bool) : Style :=
  if (env "NO_COLOR").any (· ≠ "") then plain
  else if (env "CLICOLOR_FORCE").any (· ≠ "") then ⟨true⟩
  else ofTerminal env terminal

/-- The text with the display attributes of the given numbers. -/
def paint (style : Style) (attributes text : String) : String :=
  if style.styled then "\x1b[" ++ attributes ++ "m" ++ text ++ "\x1b[0m" else text

def red (style : Style) : String → String := style.paint "31"

def green (style : Style) : String → String := style.paint "32"

def yellow (style : Style) : String → String := style.paint "33"

def cyan (style : Style) : String → String := style.paint "36"

def bold (style : Style) : String → String := style.paint "1"

def dimmed (style : Style) : String → String := style.paint "2"

def boldCyan (style : Style) : String → String := style.paint "1;36"

/-- Bold, with one more attribute. -/
def strong (style : Style) (added text : String) : String :=
  if style.styled then "\x1b[1m" ++ style.paint added text else text

end Style

end EventMachine
