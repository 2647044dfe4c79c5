import ForestPanel.Lib.Frames

/-!
# Encrypted ClientHello configurations

`generateECHConfig` writes a configuration of one X25519 key by hand, with the length of the public
name in one byte. What is written for a name of at most 255 bytes is read back; for a longer one
it is not.
-/
namespace ForestPanel.ServerNode

open Frames

abbrev Key := { bytes : Bytes // bytes.length = 32 }

/-- The three suites of HKDF-SHA256. -/
def cipherSuites : Bytes :=
  [(1, 1), (1, 2), (1, 3)].flatMap fun suite : Nat × Nat => word suite.1 ++ word suite.2

def echContents (publicKey publicName : Bytes) : Bytes :=
  byte 0 ++ (word 32 ++ (word publicKey.length ++ (publicKey ++ (frame16 cipherSuites ++
    (byte 0 ++ (byte publicName.length ++ (publicName ++ word 0)))))))

/-- The configuration; none where its contents are too long for the builder. -/
def generateECHConfig (publicKey publicName : Bytes) : Option Bytes :=
  let contents := echContents publicKey publicName
  if contents.length ≤ 65535 then some (word 65037 ++ frame16 contents) else none

/-- The key file: the private key and the configuration. -/
def keyFile (privateKey config : Bytes) : Bytes :=
  word privateKey.length ++ (privateKey ++ (word config.length ++ config))

/-- A configuration as the format has it. -/
structure ECHConfig where
  configID : Nat
  kemID : Nat
  publicKey : Bytes
  suites : Bytes
  maximumNameLength : Nat
  publicName : Bytes
  extensions : Bytes
deriving DecidableEq

def readContents (text : Bytes) : Option ECHConfig := do
  let (configID, text) ← readByte text
  let (kemID, text) ← readWord text
  let (publicKey, text) ← readFrame16 text
  let (suites, text) ← readFrame16 text
  let (maximumNameLength, text) ← readByte text
  let (publicName, text) ← readFrame8 text
  let (extensions, text) ← readFrame16 text
  if text = [] then
    some ⟨configID, kemID, publicKey, suites, maximumNameLength, publicName, extensions⟩
  else none

def readECHConfig (text : Bytes) : Option ECHConfig := do
  let (version, text) ← readWord text
  let (contents, text) ← readFrame16 text
  if version = 65037 ∧ text = [] then readContents contents else none

theorem echContents_frames (publicKey publicName : Bytes) :
    echContents publicKey publicName = byte 0 ++ (word 32 ++ (frame16 publicKey ++
      (frame16 cipherSuites ++ (byte 0 ++ (frame8 publicName ++ (frame16 [] ++ [])))))) := by
  simp [echContents, frame16, frame8]

theorem length_echContents (publicKey : Key) (publicName : Bytes) :
    (echContents publicKey publicName).length = 55 + publicName.length := by
  have key := publicKey.property
  simp only [echContents, List.length_append, key]
  simp [byte, word, frame16, cipherSuites]
  omega

def writtenConfig (publicKey publicName : Bytes) : ECHConfig where
  configID := 0
  kemID := 32
  publicKey
  suites := cipherSuites
  maximumNameLength := 0
  publicName
  extensions := []

theorem readContents_written (publicKey : Key) {publicName : Bytes}
    (short : publicName.length < 256) :
    readContents (echContents publicKey publicName) =
      some (writtenConfig publicKey publicName) := by
  have key : (publicKey : Bytes).length < 65536 := by
    rw [publicKey.property]
    decide
  have suites : cipherSuites.length < 65536 := by decide
  have extensions := @readFrame16_frame16 [] (by simp) []
  rw [List.append_nil] at extensions
  rw [echContents_frames]
  simp [readContents, key, suites, short, extensions, writtenConfig]

theorem readECHConfig_written {publicKey : Key} {publicName config : Bytes}
    (short : publicName.length < 256)
    (written : generateECHConfig publicKey publicName = some config) :
    readECHConfig config = some (writtenConfig publicKey publicName) := by
  have size := length_echContents publicKey publicName
  unfold generateECHConfig at written
  rw [if_pos (by omega)] at written
  obtain rfl := Option.some.inj written
  have frame := @readFrame16_frame16 (echContents publicKey publicName) (by omega) []
  rw [List.append_nil] at frame
  have version : (65037 : Nat) < 65536 := by omega
  unfold readECHConfig
  rw [readWord_word version]
  simp only [Option.bind_eq_bind, Option.bind_some, frame, and_self, if_true]
  exact readContents_written publicKey short

theorem readContents_name {text : Bytes} {config : ECHConfig}
    (read : readContents text = some config) : config.publicName.length < 256 := by
  simp only [readContents, Option.bind_eq_bind, Option.bind_eq_some_iff] at read
  obtain ⟨⟨_, _⟩, -, ⟨_, _⟩, -, ⟨_, _⟩, -, ⟨_, _⟩, -, ⟨_, _⟩, -, ⟨name, rest⟩, named, ⟨_, _⟩, -,
    returned⟩ := read
  split at returned
  next =>
    obtain rfl := Option.some.inj returned
    exact readFrame8_length named
  next => cases returned

theorem readECHConfig_name {text : Bytes} {config : ECHConfig}
    (read : readECHConfig text = some config) : config.publicName.length < 256 := by
  simp only [readECHConfig, Option.bind_eq_bind, Option.bind_eq_some_iff] at read
  obtain ⟨⟨_, _⟩, -, ⟨_, _⟩, -, returned⟩ := read
  split at returned
  next => exact readContents_name returned
  next => cases returned

theorem keyFile_injective {first second : Key} {config config' : Bytes}
    (same : keyFile first config = keyFile second config') : first = second := by
  have lengths : (first : Bytes).length = (second : Bytes).length :=
    first.property.trans second.property.symm
  unfold keyFile at same
  rw [lengths, List.append_right_inj] at same
  exact Subtype.ext (List.append_inj_left same lengths)

end ForestPanel.ServerNode
