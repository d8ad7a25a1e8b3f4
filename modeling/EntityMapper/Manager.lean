import EntityMapper.Config
import EntityMapper.Session.Transaction

/-! # Managers

A manager holds valid settings, a schema cache, and the sessions it has opened, each with a
driver of its own. All sessions share the cache.
-/

namespace EntityMapper

/-- A manager of sessions. -/
structure Manager (σ : Type) where
  config : Config
  cache : SchemaCache
  sessions : KeyMap σ

namespace Manager

variable {σ α : Type} {d : Driver σ}

/-- A manager with settings that a driver can connect with. -/
def ofConfig (config : Config) : Except MapperError (Manager σ) := do
  config.validate
  return ⟨config, .empty, .empty⟩

variable (m : Manager σ)

/-- What opening a session reports. -/
def connecting : Entry := .event (.connecting m.config.server.address m.config.server.database)

/-- Opens a session on a connection, in place of one of the same name. -/
def openSession (name : String) : Except DriverError σ → Manager σ × Except MapperError Unit
  | .ok driver => ({ m with sessions := m.sessions.insert name driver }, .ok ())
  | .error e => (m, .error (.driver e))

/-- Runs an action in an open session. -/
def runIn (name : String) (action : Action d α) : Option (Outcome σ α × Manager σ) :=
  (m.sessions.get? name).map fun driver =>
    let outcome := action.run ⟨driver, m.cache⟩
    (outcome, { m with
      cache := outcome.world.cache
      sessions := m.sessions.insert name outcome.world.driver })

/-- Closes a session. -/
def close (name : String) : Manager σ := { m with sessions := m.sessions.erase name }

/-- Changes the cache that all sessions share. -/
def modifyCache (f : SchemaCache → SchemaCache) : Manager σ := { m with cache := f m.cache }

/-- Forgets every ensured table. -/
def reset : Manager σ := m.modifyCache fun _ => .empty

/-- A manager as diagnostics write it; its connections are not shown. -/
def diagnosticText : String :=
  "Manager \x7b config: " ++ m.config.diagnosticText ++ ", cache: " ++ m.cache.diagnosticText ++
    ", .. \x7d"

end Manager

/-- The failure of a server that takes no connections. -/
def refusal (server : ServerConfig) : DriverError := ⟨"refused " ++ server.url⟩

/-- A source of connections that counts those it opens, or refuses them all. -/
structure Connector where
  opened : Nat
  refuses : Bool
  deriving DecidableEq

/-- Opens a connection in a fresh state. -/
def Connector.connect {σ : Type} (connector : Connector) (fresh : σ) (server : ServerConfig) :
    Except DriverError σ × Connector :=
  if connector.refuses then (.error (refusal server), connector)
  else (.ok fresh, { connector with opened := connector.opened + 1 })

end EntityMapper
