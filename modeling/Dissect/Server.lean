/-
# The server

What a server decides when it starts: how much it logs, which service its functions use, and whether
the audit monitor is installed.
-/
import Dissect.Audit
import Dissect.Functions

namespace Dissect

/-- A server: the least level of the records it logs, its service and its audit monitor. -/
structure Server where
  logLevel : Int
  service : Service
  monitor : Monitor := {}

namespace Server

/-- The levels that have names. -/
def levels : List (String × Int) :=
  [("CRITICAL", 50), ("FATAL", 50), ("ERROR", 40), ("WARNING", 30), ("WARN", 30), ("INFO", 20),
   ("DEBUG", 10), ("NOTSET", 0)]

/-- The level that is used unless the settings name another. -/
def defaultLevel : Int := 20

/-- A name that the logging system gives to a layout and not to a level. -/
def layoutName : String := "BASIC_FORMAT"

/-- The layout of that name. -/
def layout : String := "%(levelname)s:%(name)s:%(message)s"

/-- The level that a setting names; an unknown name counts as the default. -/
def levelOf (setting : Option String) : Except Fault Int :=
  let name := Text.upper (ToolConfiguration.textOr setting "INFO")
  if name = layoutName then
    .error (.ofText .valueError ("Unknown level: " ++ Text.quote layout))
  else .ok ((levels.lookup name).getD defaultLevel)

/-- Sets up a server from the settings. -/
def setUp : Run Server := do
  let logLevel ← Run.ofExcept (levelOf (← Settings.get? "CLASSVIEW_LOG_LEVEL"))
  let service ← Service.shared none
  return { logLevel, service }

/-- Starts a server: the audit monitor is installed unless the settings say no. -/
def start (server : Server) : Run Server := do
  if ← Settings.bool "CLASSVIEW_AUDIT_EXEC" true then
    return { server with monitor := server.monitor.install.2 }
  else return server

end Server

end Dissect
