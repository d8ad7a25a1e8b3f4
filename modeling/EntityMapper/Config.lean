import EntityMapper.Error
import EntityMapper.Text.Diagnostic

/-! # Configuration

The settings of a database server, their defaults, and how they are read from a JSON
document. Members are visited in the order of their keys and the first problem is reported.
-/

namespace EntityMapper

/-- How to reach a database server. -/
structure ServerConfig where
  user : String
  password : String
  address : String
  database : String
  charset : String
  deriving DecidableEq

/-- The settings of a mapper. -/
structure Config where
  server : ServerConfig
  deriving DecidableEq

/-- The server on this machine, without a database. -/
def ServerConfig.standard : ServerConfig := ⟨"root", "", "localhost:3306", "", "utf8"⟩

/-- The settings that a document may leave out. -/
def Config.standard : Config := ⟨.standard⟩

namespace ServerConfig

variable (s : ServerConfig)

/-- What is missing before a driver can connect. -/
def fault? : Option ConfigFault :=
  if allBlank s.address then some .emptyAddress
  else if allBlank s.database then some .emptyDatabase
  else none

/-- The address of the server with credentials, database and character set. -/
def url : String :=
  let credentials := if s.password = "" then s.user else s.user ++ ":" ++ s.password
  "mysql://" ++ credentials ++ "@" ++ s.address ++ "/" ++ s.database ++ "?charset=" ++ s.charset

/-- The settings as diagnostics write them. -/
def diagnosticText : String :=
  diagnosticStruct "ServerConfig"
    [("user", diagnosticQuote s.user), ("password", diagnosticQuote s.password),
     ("address", diagnosticQuote s.address), ("db_name", diagnosticQuote s.database),
     ("charset", diagnosticQuote s.charset)]

end ServerConfig

/-- The settings, if a driver can connect with them. -/
def Config.validate (config : Config) : Except MapperError Unit :=
  match config.server.fault? with
  | some fault => .error (.config fault)
  | none => .ok ()

/-- The settings as diagnostics write them. -/
def Config.diagnosticText (config : Config) : String :=
  diagnosticStruct "OrmConfig" [("server", config.server.diagnosticText)]

/-! ## Reading -/

/-- Why a document is no configuration. -/
inductive ConfigError
  | unknownField (name : String) (known : List String)
  | wrongType (found : Json) (expected : String)
  | tooLong (length : Nat)

/-- What a document holds, as messages put it. -/
def foundText : Json → String
  | .null => "null"
  | .bool b => "boolean `" ++ diagnosticBool b ++ "`"
  | .number (.natural n) => "integer `" ++ n.toNat.repr ++ "`"
  | .number (.negative n _) => "integer `" ++ integerText n.toInt ++ "`"
  | .number (.float (.finite negative m e _) _) =>
      "floating point `" ++ signText negative ++ (Decimal.shortest .larger m e).fractional ++ "`"
  | .string s => "string " ++ diagnosticQuote s
  | .array _ => "sequence"
  | .object _ => "map"

/-- The names that a message offers. -/
def knownText (names : List String) : String :=
  let quoted := names.map fun name => "`" ++ name ++ "`"
  if names.length = 1 then String.join quoted else "one of " ++ String.intercalate ", " quoted

/-- The problem in words. -/
def ConfigError.message : ConfigError → String
  | unknownField name known => "unknown field `" ++ name ++ "`, expected " ++ knownText known
  | wrongType found expected => "invalid type: " ++ foundText found ++ ", expected " ++ expected
  | tooLong length =>
      "invalid length " ++ length.repr ++ ", expected fewer elements in array"

/-- One setting of a group: its name, and how it is read into the group. -/
structure Setting (α : Type) where
  name : String
  read : Json → α → Except ConfigError α

namespace Setting

variable {α : Type}

/-- Reads members by name. -/
def readMembers (settings : List (Setting α)) :
    List (String × Json) → α → Except ConfigError α
  | [], group => .ok group
  | (name, value) :: members, group =>
      match settings.find? (·.name == name) with
      | none => .error (.unknownField name (settings.map (·.name)))
      | some setting => do readMembers settings members (← setting.read value group)

/-- Reads items by position; the items that no setting takes are left. -/
def readItems : List (Setting α) → List Json → α → Except ConfigError (α × List Json)
  | setting :: settings, item :: items, group => do
      readItems settings items (← setting.read item group)
  | _, items, group => .ok (group, items)

/-- Reads a group of settings from an object or an array; what is left out keeps its
default. -/
def readGroup (groupName : String) (settings : List (Setting α)) (default : α) :
    Json → Except ConfigError α
  | .object members => readMembers settings members default
  | .array items => do
      let (group, left) ← readItems settings items default
      if left.isEmpty then return group else throw (.tooLong items.length)
  | found => .error (.wrongType found ("struct " ++ groupName))

/-- A setting that holds text. -/
def text (name : String) (set : String → α → α) : Setting α where
  name
  read
    | .string s, group => .ok (set s group)
    | found, _ => .error (.wrongType found "a string")

end Setting

/-- The settings of a server, in declaration order. -/
def ServerConfig.settings : List (Setting ServerConfig) :=
  [.text "user" fun s server => { server with user := s },
   .text "password" fun s server => { server with password := s },
   .text "address" fun s server => { server with address := s },
   .text "db_name" fun s server => { server with database := s },
   .text "charset" fun s server => { server with charset := s }]

/-- Reads the settings of a server. -/
def ServerConfig.ofJson : Json → Except ConfigError ServerConfig :=
  Setting.readGroup "ServerConfig" ServerConfig.settings .standard

/-- Reads a configuration. -/
def Config.ofJson : Json → Except ConfigError Config :=
  Setting.readGroup "OrmConfig"
    [{ name := "server", read := fun j config => do
        return { config with server := ← ServerConfig.ofJson j } }]
    .standard

end EntityMapper
