import Automation.Config
import Automation.Run.Plan

/-!
What nodes may use while they run: the settings, and a store of credentials.
-/

namespace Automation

structure Services where
  config : AppConfig
  fetch : String → Except Failure Credential

def Services.resolve {α : Type} (s : Services) (p : Payload α) (id : String) : Except Failure α :=
  (s.fetch id).bind fun c => c.payload p

end Automation
