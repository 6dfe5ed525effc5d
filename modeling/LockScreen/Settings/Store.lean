import LockScreen.Json.Reader
import LockScreen.Json.Writer
import LockScreen.Settings.Merge

/-!
# Stored settings

Settings in memory and in the file that outlives them. Every accepted change is written to the file as
a whole; a refused one leaves both as they were. A change that is accepted although it cannot be written is
in force without being in the file.

What the file is written with is not part of the store: a disk may fail, and integers of too many digits may have no
text. So `Medium` says what becomes of a save, and a store works on any of them. The standard one takes every text, and
integers up to the length that is read as well.
-/

namespace LockScreen

/-- What the settings file holds: a text, or bytes that are none. -/
inductive FileContent
  | text (s : String)
  | garbled
deriving DecidableEq

/-- The text with each line ended by a line feed, whatever ended it before. -/
def withLineFeeds : List Char → List Char
  | '\r' :: '\n' :: rest => '\n' :: withLineFeeds rest
  | '\r' :: rest => '\n' :: withLineFeeds rest
  | c :: rest => c :: withLineFeeds rest
  | [] => []

namespace Settings

/-- The settings that the text of a file gives. -/
def ofFileText (text : String) (depth : Nat := Json.usualDepth) : Except Fault Settings := do
  match ← Json.read text depth with
  | .object fields => standard.merge (.object fields)
  | _ => throw .fileNotObject

/-- The text of the file that holds the settings. -/
def toFileText (s : Settings) : String :=
  Json.indented s.toValue

/-- Why settings have no text where integers may not have more digits than a limit. -/
def unwritable? (s : Settings) (limit : Option Nat) : Option Fault :=
  if limit.any fun limit => (Json.leaves s.toValue).any (Json.isOverlong limit) then some .integerUnwritable else none

/-- The settings that a file gives, standard ones without a file. Only a bad value makes a file
unreadable; an overflow is passed on. -/
def load (file : Option FileContent) (depth : Nat := Json.usualDepth) : Except Fault Settings :=
  match file with
  | none => .ok standard
  | some .garbled => .error (.fileUnreadable .fileNotText)
  | some (.text text) =>
    match ofFileText text depth with
    | .ok s => .ok s
    | .error fault => .error (if fault.kind = .value then .fileUnreadable fault else fault)

end Settings

/-- What settings are written with: the most digits that an integer may have in a text, if there is a limit, and a disk,
which is to put a text in the place of a file. What the disk leaves of the file counts also where it fails. -/
structure Medium where
  digitLimit : Option Nat
  leastDigitLimit_le : ∀ limit ∈ digitLimit, Numeral.leastDigitLimit ≤ limit
  write : Option FileContent → String → Option FileContent × Option Fault

/-- A disk that takes every text, and integers up to the length that is read. -/
def Medium.standard : Medium where
  digitLimit := some Numeral.digitLimit
  leastDigitLimit_le := by decide
  write _ text := (some (.text text), none)

/-- A change that is asked of a store, with the value that it is given. -/
inductive StoreCall
  | update (payload : Value)
  | setThresholds (v : Value)
  | setShowDetails (v : Value)
  | setWarningColor (v : Value)

/-- The value that a call is given. -/
def StoreCall.argument : StoreCall → Value
  | .update v | .setThresholds v | .setShowDetails v | .setWarningColor v => v

/-- Settings in force and the file they are kept in. -/
structure SettingsStore where
  settings : Settings
  file : Option FileContent
deriving DecidableEq

namespace SettingsStore

/-- A store on a file. -/
def ofFile (file : Option FileContent) (depth : Nat := Json.usualDepth) : Except Fault SettingsStore := do
  return { settings := ← Settings.load file depth, file }

/-- Settings in force that are written down. -/
def saved (settings : Settings) : SettingsStore :=
  ⟨settings, some (.text settings.toFileText)⟩

/-- Merges a payload into the settings. -/
def update (store : SettingsStore) (payload : Value) : Except Fault SettingsStore := do
  return saved (← store.settings.merge payload)

/-- Changes the thresholds. -/
def setThresholds (store : SettingsStore) (v : Value) : Except Fault SettingsStore := do
  let thresholds ← Settings.readThresholds v store.settings.thresholds
  return saved { store.settings with thresholds }

/-- Changes whether details are shown. -/
def setShowDetails (store : SettingsStore) (v : Value) : Except Fault SettingsStore := do
  let showDetails ← Settings.readFlag v store.settings.showDetails
  return saved { store.settings with showDetails }

/-- Changes the colour of warnings. -/
def setWarningColor (store : SettingsStore) (v : Value) : Except Fault SettingsStore := do
  let warningColor ← Settings.readColor v store.settings.warningColor
  return saved { store.settings with warningColor }

/-- The store that an accepted call leads to, where the save goes well. -/
def call (store : SettingsStore) : StoreCall → Except Fault SettingsStore
  | .update payload => store.update payload
  | .setThresholds v => store.setThresholds v
  | .setShowDetails v => store.setShowDetails v
  | .setWarningColor v => store.setWarningColor v

/-- Writes the settings in force to the file. -/
def save (store : SettingsStore) (m : Medium) : SettingsStore × Option Fault :=
  match store.settings.unwritable? m.digitLimit with
  | some fault => (store, some fault)
  | none =>
    let (file, fault) := m.write store.file store.settings.toFileText
    ({ store with file }, fault)

/-- The store after a call, and the fault if the call fails. -/
def perform (store : SettingsStore) (c : StoreCall) (m : Medium := .standard) : SettingsStore × Option Fault :=
  match store.call c with
  | .error fault => (store, some fault)
  -- the settings are in force before they are written
  | .ok next => save { next with file := store.file } m

end SettingsStore

end LockScreen
