import GoToSymbol.CommandLine.Preferences
import GoToSymbol.Proofs.Config.Accepted

namespace GoToSymbol

open Config

namespace Setting

end Setting

namespace Settings

section Sections

variable {α : Type} {name typeName : String} {section? : Option Setting}
  {read : Givens → Except (List FieldError) α}

end Sections

namespace Readers

variable {r : Readers} {env : Environment} {dotenv : File.Content}
  {members : List (Option String × Setting)}

end Readers

end Settings

namespace CommandLine

end CommandLine

end GoToSymbol
