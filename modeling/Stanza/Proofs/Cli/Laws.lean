import Stanza.Cli.Run

/-!
What is known of the tools that a run relies on.

Readers, parser and console are given to a run, and little has to be known of them. Each law below
is a premise of the results that need it, and of no others.
-/

namespace Stanza

/-- What is written for the default settings is read as what they are. -/
structure Settings.Codec.IsLawful (codec : Settings.Codec) : Prop where
  read_default : codec.read (Settings.defaultBytes codec) = .ok (.mapping Settings.defaultEntries)

namespace Cli

/-- A name that has to be that of a file will do exactly when there is one, and only a null
character in it keeps the parser from looking. -/
structure Parser.IsLawful (parser : Parser) : Prop where
  file : ∀ bytes, parser.vet (.ok (.file bytes)) = .accepted
  directory : parser.vet (.ok .directory) = .refused
  missing : ∀ error, error ≠ .nullCharacter → parser.vet (.error error) = .refused
  null : parser.vet (.error .nullCharacter) = .broken .nullCharacter

/-- Control sequences start with an escape character and tags with a bracket, so what has none is
printed as it is or shown in a table. The lines that the program marks up itself can be put out, for
what they quote is escaped. -/
structure Console.IsLawful (console : Console) : Prop where
  echo : ∀ text, '\x1b' ∉ text → console.echo text = text
  table : ∀ title columns rows, (∀ row ∈ rows, ∀ cell ∈ row, '[' ∉ String.toList cell) →
    ∃ shown, console.table title columns rows = some shown
  report : ∀ title ∈ ["Compilation failed", "Check failed", "Could not load configuration"],
    ∀ message, ∃ shown, console.print (console.reportLine title message) = some shown
  path : ∀ path, ∃ shown, console.print (console.pathLine path) = some shown
  wrote : ∀ path, ∃ shown, console.print (console.wroteLine path) = some shown
  count : ∀ count, ∃ shown, console.print (Console.countLine count) = some shown

end Cli

end Stanza
