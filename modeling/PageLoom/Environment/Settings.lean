import PageLoom.Config.Validation
import PageLoom.Environment.Basic

/-!
# Settings

What environment variables set for a program: a logging level that counts before every option, and
a port and a number of workers that count where a configuration file gives none. An empty value
sets nothing.
-/

namespace PageLoom.Environment

open Config

structure Settings where
  logLevel : Option Text
  port : Option Int
  workers : Option Int
deriving Repr, DecidableEq

def levelVariable : Text := "TAGSMITH_LOG_LEVEL".toList

def portVariable : Text := "TAGSMITH_PORT".toList

def workersVariable : Text := "TAGSMITH_WORKERS".toList

def setting? (environment : Environment) (name : Text) : Option Text :=
  (environment.value? name).filter fun value => !value.isEmpty

def wholeSetting (environment : Environment) (name : Text) : Checked (Option Int) :=
  match environment.setting? name with
  | none => .ok none
  | some value => (placed [name] (.text value) (integerOfText value)).map some

def settings (environment : Environment) : Checked Settings :=
  let build := Settings.mk (environment.setting? levelVariable)
  Checked.and (Checked.and (.ok build) (environment.wholeSetting portVariable))
    (environment.wholeSetting workersVariable)

end PageLoom.Environment
