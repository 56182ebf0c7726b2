import PageLoom.Config.Load
import PageLoom.Environment.Settings

/-!
# Configuration layers

A configuration is put together from layers: explicit overrides first, then what the configuration
file gives, then the environment for the port and the number of workers, then the defaults. The
whole is checked like a configuration file.
-/

namespace PageLoom.Config

open Site Environment

/-- What counts as loaded without a configuration file. -/
def nothingLoaded : Loaded := ⟨defaultConfig, []⟩

/-- Sets a field from the environment unless the file gave it. -/
def fill (given : List Text) (name : Text) (value? : Option Int) (table : Table) : Table :=
  match value? with
  | some value => if given.contains name then table else table.insert name (.integer value)
  | none => table

def override (table overrides : Table) : Table :=
  overrides.foldl (fun table entry => table.insert entry.1 entry.2) table

/-- The table of all layers. -/
def mergedTable (loaded : Loaded) (settings : Settings) (overrides : Table) : Table :=
  let filled := fill loaded.given "workers".toList settings.workers
    (fill loaded.given "port".toList settings.port (dump loaded.config))
  override filled overrides

def layered (loaded : Loaded) (settings : Settings) (overrides : Table) : Checked BuildConfig :=
  validate (mergedTable loaded settings overrides)

end PageLoom.Config
