import EntitySchema.CommandLine.Basic

/-!
# Help

The help of the program and of its commands: a line on how it is used, what it is for, and lists of terms
with explanations.  Lines are at most eighty columns wide, and all explanations start in one column.
-/

namespace EntitySchema

namespace CommandLine

/-- The width of the lines. -/
def lineWidth : Nat := 80

/-- Fills lines with words; a word that is wider than a line has a line of its own. -/
def fillLines (width : Nat) (line : String) : List String → List String
  | [] => [line]
  | w :: ws =>
    let longer := line ++ " " ++ w
    if longer.length ≤ width then fillLines width longer ws else line :: fillLines width w ws

/-- The lines of a text that starts in some column; a line ends before the last column. -/
def wrap (column : Nat) (text : String) : List String :=
  match (text.toList.splitOn ' ').map String.ofList with
  | [] => []
  | w :: ws => fillLines (lineWidth - column - 1) w ws

/-- A term with its explanation. -/
structure HelpItem where
  term : String
  explanation : String
  deriving DecidableEq, Repr

/-- Blanks. -/
def blanks (n : Nat) : String :=
  String.ofList (List.replicate n ' ')

/-- A text with blanks up to a width. -/
def padTo (width : Nat) (text : String) : String :=
  text ++ blanks (width - text.length)

/-- The lines of an item when the widest of all terms has some width. -/
def HelpItem.lines (termWidth : Nat) (i : HelpItem) : List String :=
  let column := termWidth + 4
  match wrap column i.explanation with
  | [] => ["  " ++ i.term]
  | first :: more => (blanks 2 ++ padTo (termWidth + 2) i.term ++ first) :: more.map (blanks column ++ ·)

/-- A list of items under a title. -/
structure HelpSection where
  title : String
  items : List HelpItem
  deriving DecidableEq, Repr

/-- The text of a help. -/
def helpText (usage description : String) (sections : List HelpSection) : String :=
  let termWidth := ((sections.flatMap (·.items)).map (·.term.length)).foldl max 0
  let about := if description.isEmpty then [] else wrap 0 description ++ [""]
  let lists := sections.flatMap fun s =>
    (s.title ++ ":") :: s.items.flatMap (HelpItem.lines termWidth) ++ [""]
  "\n".intercalate (["Usage: " ++ usage, ""] ++ about ++ lists)

/-- The options as a list. -/
def optionSection (options : List OptionSpec) : HelpSection :=
  ⟨"Options", (listed options).map fun o => ⟨o.form, o.explanation⟩⟩

/-- How a command is used. -/
def Command.usage (c : Command) : String :=
  c.name ++ " [options] [directory]"

/-- The help of the program. -/
def Program.help (p : Program) : String :=
  let items := commands.map fun c => HelpItem.mk c.usage c.summary
  helpText (p.name ++ " [options] [command]") p.description
    [optionSection programOptions,
      ⟨"Commands", items ++ [⟨helpCommand ++ " [command]", "display help for command"⟩]⟩]

/-- The help of a command. -/
def Command.help (p : Program) (c : Command) : String :=
  helpText (p.name ++ " " ++ c.usage) c.description
    [⟨"Arguments", [⟨"directory", "Directory holding the model documents of the project module"⟩]⟩,
      optionSection c.options]

end CommandLine

end EntitySchema
