import Mathlib.Data.List.Nodup
import TrevRpc.Lib.LittleEndian
import TrevRpc.Negotiation.Protocol

/-!
# Compression configurations (`compression.rs` and `compression.go`)

One dictionary of each ID, at most one for each message type, and compression without a dictionary under ID 0.
-/

open TrevRpc.Rust

namespace TrevRpc.Negotiation

structure Dictionary where
  data : Bytes
  messages : List String

/-- Of libzstd, an error if a dictionary does not load, and 8 bytes of SHA-256. -/
structure Digest where
  load : Bytes → Option String
  fingerprint : Bytes → Bytes

theorem find_of_unique {set : List DictionaryInfo} (hset : ∀ d ∈ set, ∀ e ∈ set, d.id = e.id → d = e)
    {d : DictionaryInfo}
    (hd : d ∈ set) : set.find? (·.id = d.id) = some d := by
  cases hf : set.find? (·.id = d.id) with
  | none =>
    rw [List.find?_eq_none] at hf
    simpa using hf d hd
  | some e =>
    have he : e.id = d.id := by simpa using List.find?_some hf
    rw [hset e (List.mem_of_find?_eq_some hf) d hd he]

/-- A validated configuration, with its trained dictionaries in the order of the options. -/
structure Config where
  dictionaries : List DictionaryInfo
  byType : List (String × DictionaryInfo)
  nodup : (dictionaries.map (·.id)).Nodup
  nonzero : ∀ d ∈ dictionaries, d.id ≠ 0
  typed : ∀ entry ∈ byType, entry.2 ∈ dictionaries

namespace Config

def byId (config : Config) : List DictionaryInfo := plain :: config.dictionaries

def dict (config : Config) (id : UInt32) : Option DictionaryInfo := config.byId.find? (·.id = id)

def withoutDictionaries : Config := ⟨[], [], by simp, by simp, by simp⟩

variable (config : Config)

theorem uniqueIds : UniqueIds config.byId where
  unique := by
    have hids : (config.byId.map (·.id)).Nodup := by
      rw [byId, List.map_cons, List.nodup_cons]
      refine ⟨?_, config.nodup⟩
      rw [List.mem_map]
      rintro ⟨d, hd, hid⟩
      exact config.nonzero d hd hid
    intro d hd e he hid
    exact List.inj_on_of_nodup_map hids hd he hid
  plain := by
    intro d hd hid
    rcases List.mem_cons.mp hd with rfl | hd
    · rfl
    · exact absurd hid (config.nonzero d hd)

theorem plain_mem : plain ∈ config.byId := List.mem_cons_self

variable {config}

theorem dict_eq_some {id : UInt32} {d : DictionaryInfo} : config.dict id = some d ↔ d ∈ config.byId ∧ d.id = id := by
  unfold dict
  constructor
  · intro h
    exact ⟨List.mem_of_find?_eq_some h, by simpa using List.find?_some h⟩
  · rintro ⟨hd, rfl⟩
    exact find_of_unique config.uniqueIds.unique hd

theorem lookup_mem {type : String} {d : DictionaryInfo} (h : config.byType.lookup type = some d) :
    d ∈ config.dictionaries := by
  obtain ⟨before, after, heq, -⟩ := List.lookup_eq_some_iff.mp h
  have hen : (type, d) ∈ config.byType := by simp [heq]
  exact config.typed _ hen

/-! ## Validation -/

/-- A dictionary with a new ID. -/
def insert (config : Config) (d : DictionaryInfo) (hid : d.id ≠ 0) (hnew : d.id ∉ config.byId.map (·.id)) : Config where
  dictionaries := config.dictionaries ++ [d]
  byType := config.byType
  nodup := by
    rw [List.map_append, List.nodup_append]
    refine ⟨config.nodup, by simp, ?_⟩
    rintro _ hold _ hd rfl
    rw [List.mem_map] at hold hd
    obtain ⟨e, he, hsame⟩ := hold
    obtain ⟨d', hd', rfl⟩ := hd
    obtain rfl := List.mem_singleton.mp hd'
    exact hnew (List.mem_map.mpr ⟨e, List.mem_cons_of_mem _ he, hsame⟩)
  nonzero := by
    intro e he
    rcases List.mem_append.mp he with he | he
    · exact config.nonzero e he
    · exact List.mem_singleton.mp he ▸ hid
  typed := fun entry hentry => List.mem_append_left _ (config.typed entry hentry)

def validIdentifier : List Char → Bool
  | [] => false
  | first :: rest => (first.isAlpha || first = '_') && rest.all fun c => c.isAlphanum || c = '_'

def validFullName (name : String) : Bool := name ≠ "" && (name.toList.splitOn '.').all validIdentifier

def insertMessages {ε : Type} (invalid duplicate : String → ε) (d : DictionaryInfo) :
    List String → (config : Config) → d ∈ config.dictionaries → Except ε Config
  | [], config, _ => .ok config
  | name :: names, config, hd =>
    if !validFullName name then .error (invalid name)
    else if (config.byType.lookup name).isSome then .error (duplicate name)
    else
      let typed : ∀ entry ∈ (name, d) :: config.byType, entry.2 ∈ config.dictionaries := by
        intro entry hentry
        rcases List.mem_cons.mp hentry with rfl | hentry
        · exact hd
        · exact config.typed entry hentry
      insertMessages invalid duplicate d names { config with byType := (name, d) :: config.byType, typed } hd

theorem mem_insert (d : DictionaryInfo) (hid : d.id ≠ 0) (hnew : d.id ∉ config.byId.map (·.id)) :
    d ∈ (config.insert d hid hnew).dictionaries := by
  simp [insert]

end Config

def dictionaryMagic : Nat := 0xec30a437

namespace Rust

def dictionaryId (data : Bytes) : Option { id : UInt32 // id ≠ 0 } :=
  if data.length < 8 ∨ LittleEndian.value (data.take 4) ≠ dictionaryMagic then none
  else
    let id := UInt32.ofNat (LittleEndian.value ((data.drop 4).take 4))
    if h : id ≠ 0 then some ⟨id, h⟩ else none

def addDictionary (zstd : Digest) (config : Config) (dictionary : Dictionary) : Except Status Config :=
  match dictionaryId dictionary.data with
  | none => .error (.invalidArgument "compression dictionary is not a zstd-format dictionary with an ID")
  | some ⟨id, hid⟩ =>
    match zstd.load dictionary.data with
    | some name => .error (.internal ("zstd: " ++ name))
    | none =>
      let d : DictionaryInfo := ⟨id, zstd.fingerprint dictionary.data⟩
      if hnew : d.id ∈ config.byId.map (·.id) then
        .error (.invalidArgument ("compression dictionaries share ID " ++ toString id))
      else
        Config.insertMessages
          (fun name => Status.invalidArgument
            ("invalid message type " ++ debug name ++ " in compression dictionary " ++ toString id))
          (fun name => Status.invalidArgument ("message type " ++ name ++ " is in two compression dictionaries"))
          d dictionary.messages (config.insert d hid hnew) (Config.mem_insert d hid hnew)

/-- `CompressionConfig::new`. -/
def newConfig (zstd : Digest) (dictionaries : List Dictionary) : Except Status Config :=
  dictionaries.foldlM (addDictionary zstd) Config.withoutDictionaries

end Rust

namespace Go

/-- The verb `%q` of a string. -/
def quote : String → String :=
  quoteWith [(7, "\\a"), (8, "\\b"), (9, "\\t"), (10, "\\n"), (11, "\\v"), (12, "\\f"), (13, "\\r"),
      (0x22, "\\\""), (0x5c, "\\\\")]
    fun n => "\\x" ++ (if n < 16 then "0" else "") ++ hex n

def dictId (data : Bytes) : Except String { id : UInt32 // id ≠ 0 } :=
  if data.length < 8 ∨ LittleEndian.value (data.take 4) ≠ dictionaryMagic then
    .error "zstd: not a zstd-format dictionary"
  else
    let id := UInt32.ofNat (LittleEndian.value ((data.drop 4).take 4))
    if h : id ≠ 0 then .ok ⟨id, h⟩ else .error "zstd: dictionary ID is zero"

/-- The dictionary `i` of the options. -/
def addDictionary (zstd : Digest) (config : Config) (entry : Dictionary × Nat) : Except String Config :=
  let (dictionary, i) := entry
  match dictId dictionary.data with
  | .error err => .error ("trevrpc: compression dictionary " ++ toString i ++ ": " ++ err)
  | .ok ⟨id, hid⟩ =>
    if (zstd.load dictionary.data).isSome then
      .error ("trevrpc: compression dictionary " ++ toString i ++ ": zstd: cannot load dictionary")
    else
      let d : DictionaryInfo := ⟨id, zstd.fingerprint dictionary.data⟩
      if hnew : d.id ∈ config.byId.map (·.id) then .error ("trevrpc: compression dictionaries share ID " ++ toString id)
      else
        Config.insertMessages
          (fun name => "trevrpc: compression dictionary " ++ toString i ++ ": invalid message type " ++ quote name)
          (fun name => "trevrpc: message type " ++ name ++ " is in two compression dictionaries")
          d dictionary.messages (config.insert d hid hnew) (Config.mem_insert d hid hnew)

/-- `newCompressionConfig`. -/
def newConfig (zstd : Digest) (dictionaries : List Dictionary) : Except String Config :=
  dictionaries.zipIdx.foldlM (addDictionary zstd) Config.withoutDictionaries

end Go

end TrevRpc.Negotiation
