import AutomaticCache.Lib.Decimal
import AutomaticCache.Lib.Table
import AutomaticCache.ObjectStorage.Adapters
import AutomaticCache.Proxy.Handlers
import AutomaticCache.Proxy.Remote

/-!
# The file of proxy statistics

What `main` writes when it is stopped, if `TIMED` is set: a header and a line for each entry that
was collected. The object key is written as it is. It can be read back, with all that follows it,
exactly if it has no comma and no newline (`readsBack_iff`).
-/

namespace AutomaticCache

namespace Main

open Bytes Decimal Proxy

/-! ## Written -/

/-- `%v` of a `bool`. -/
def printBool : Bool → Bytes
  | true => ascii "true"
  | false => ascii "false"

def header : Bytes :=
  ascii
    ("total, cacheRetrieve, initialize, readRequest, dialRemote, writeRequest, readResponse, " ++
      "writeResponse, cacheMiss, forwarded, failed, objectKey, workerID\n")

/-- What stands for each `%v` of the format. -/
def fields (s : ProxyStatsEntry) : List Bytes :=
  [printInt s.total, printInt s.cacheRetrieve, printInt s.initializeTime, printInt s.readRequest,
    printInt s.dialRemote, printInt s.writeRequest, printInt s.readResponse,
    printInt s.writeResponse,
    printBool s.cacheMiss, printBool s.forwarded, printBool s.failed, s.objectKey,
    printInt s.workerID]

def line (s : ProxyStatsEntry) : Bytes := (ascii ",").intercalate (fields s) ++ ascii "\n"

def writeStats (collectedStats : List ProxyStatsEntry) : Bytes :=
  header ++ collectedStats.flatMap line

/-! ## Read -/

/-- `strconv.ParseBool`, of the two texts that are written. -/
def readBool (field : Bytes) : Option Bool :=
  if field = ascii "true" then some true else if field = ascii "false" then some false else none

/-- What the name of a column says that its fields are. -/
inductive Column
  | int (name : String) (value : ProxyStatsEntry → ℤ)
  | bool (name : String) (value : ProxyStatsEntry → Bool)
  | text (name : String) (value : ProxyStatsEntry → Bytes)

def Column.name : Column → Bytes
  | int name _ | bool name _ | text name _ => ascii name

/-- The field is read as the entry's value. -/
def Column.Reads (s : ProxyStatsEntry) : Column → Bytes → Prop
  | int _ value, field => readInt field = some (value s)
  | bool _ value, field => readBool field = some (value s)
  | text _ value, field => field = value s

def columns : List Column :=
  [.int "total" (·.total), .int "cacheRetrieve" (·.cacheRetrieve),
    .int "initialize" (·.initializeTime),
    .int "readRequest" (·.readRequest), .int "dialRemote" (·.dialRemote),
    .int "writeRequest" (·.writeRequest), .int "readResponse" (·.readResponse),
    .int "writeResponse" (·.writeResponse), .bool "cacheMiss" (·.cacheMiss),
    .bool "forwarded" (·.forwarded), .bool "failed" (·.failed), .text "objectKey" (·.objectKey),
    .int "workerID" (·.workerID)]

/-- A header of the columns' names, which a blank may precede, and a row for each entry. -/
def ReadsBack (collectedStats : List ProxyStatsEntry) (text : Bytes) : Prop :=
  ∃ names rows, Table.read (byte ',') (byte '\n') text = names :: rows ∧
    names.map (List.dropWhile (· == byte ' ')) = columns.map Column.name ∧
    List.Forall₂ (fun s row => List.Forall₂ (Column.Reads s) columns row) collectedStats rows

/-! ## A table -/

def names : List Bytes :=
  ["total", " cacheRetrieve", " initialize", " readRequest", " dialRemote", " writeRequest",
    " readResponse", " writeResponse", " cacheMiss", " forwarded", " failed", " objectKey",
    " workerID"].map ascii

theorem length_names : names.length = columns.length := by
  simp only [names, columns, List.length_map, List.length_cons, List.length_nil]

theorem names_eq : names.map (List.dropWhile (· == byte ' ')) = columns.map Column.name := by
  decide +kernel

theorem header_eq : header = Table.printRow (byte ',') (byte '\n') names := by decide +kernel

theorem writeStats_eq (collectedStats : List ProxyStatsEntry) : writeStats collectedStats =
    Table.print (byte ',') (byte '\n') (names :: collectedStats.map fields) := by
  rw [Table.print, List.flatMap_cons, List.flatMap_map, ← header_eq]
  rfl

/-- What no number, no truth value and no name contains. -/
def Separates (b : UInt8) : Prop := b = byte ',' ∨ b = byte '\n'

theorem not_mem_printInt_of_separates {b : UInt8} (hb : Separates b) (z : ℤ) :
    b ∉ printInt z := by
  obtain rfl | rfl := hb
  all_goals exact not_mem_printInt (by decide) (by decide)

theorem not_mem_printBool {b : UInt8} (hb : Separates b) (x : Bool) : b ∉ printBool x := by
  obtain rfl | rfl := hb
  all_goals cases x <;> decide

theorem not_mem_names {b : UInt8} (hb : Separates b) : ∀ name ∈ names, b ∉ name := by
  obtain rfl | rfl := hb
  all_goals decide

/-- The key is the only field that may contain a separator. -/
theorem plain_fields_iff (s : ProxyStatsEntry) {b : UInt8} (hb : Separates b) :
    (∀ field ∈ fields s, b ∉ field) ↔ b ∉ s.objectKey := by
  simp only [fields, List.forall_mem_cons, not_mem_printInt_of_separates hb, not_mem_printBool hb,
    not_false_eq_true, true_and, List.not_mem_nil, false_implies, implies_true, and_true]

theorem readBool_printBool (x : Bool) : readBool (printBool x) = some x := by
  cases x <;> decide

theorem reads_fields (s : ProxyStatsEntry) :
    List.Forall₂ (Column.Reads s) columns (fields s) := by
  simp only [columns, fields, List.forall₂_cons, Column.Reads, readInt_printInt,
    readBool_printBool,
    List.forall₂_nil_left_iff, and_true]

/-- The rows of the table are separated from each other exactly if the keys are plain. -/
theorem plain_table_iff (collectedStats : List ProxyStatsEntry) :
    (∀ row ∈ names :: collectedStats.map fields, ∀ field ∈ row, byte ',' ∉ field ∧
      byte '\n' ∉ field) ↔
      ∀ s ∈ collectedStats, byte ',' ∉ s.objectKey ∧ byte '\n' ∉ s.objectKey := by
  rw [List.forall_mem_cons, and_iff_right, List.forall_mem_map]
  · refine forall₂_congr fun s _ => ?_
    rw [← plain_fields_iff s (.inl rfl), ← plain_fields_iff s (.inr rfl)]
    exact ⟨fun h => ⟨fun field hf => (h field hf).1, fun field hf => (h field hf).2⟩,
      fun h field hf => ⟨h.1 field hf, h.2 field hf⟩⟩
  · exact fun name hname => ⟨not_mem_names (.inl rfl) name hname,
      not_mem_names (.inr rfl) name hname⟩

theorem separators_ne : byte ',' ≠ byte '\n' := by decide

theorem rows_ne_nil (collectedStats : List ProxyStatsEntry) :
    ∀ row ∈ names :: collectedStats.map fields, row ≠ [] := by
  refine List.forall_mem_cons.2 ⟨List.cons_ne_nil _ _, List.forall_mem_map.2 fun s _ => ?_⟩
  exact List.cons_ne_nil _ _

theorem plain_of_readsBack {collectedStats : List ProxyStatsEntry}
    (h : ReadsBack collectedStats (writeStats collectedStats)) :
    ∀ s ∈ collectedStats, byte ',' ∉ s.objectKey ∧ byte '\n' ∉ s.objectKey := by
  obtain ⟨names', rows, hread, hnames, hentries⟩ := h
  rw [writeStats_eq] at hread
  rw [← plain_table_iff, ← Table.alike_read_print_iff separators_ne (rows_ne_nil _), hread]
  have hlength := congrArg List.length hnames
  rw [List.length_map, List.length_map, ← length_names] at hlength
  refine .cons hlength ?_
  rw [List.forall₂_map_right_iff]
  exact hentries.flip.imp fun row s hrow => hrow.length_eq.symm

/-- **The file.** It is read back exactly if no entry's key has a comma or a newline. -/
theorem readsBack_iff (collectedStats : List ProxyStatsEntry) :
    ReadsBack collectedStats (writeStats collectedStats) ↔
      ∀ s ∈ collectedStats, byte ',' ∉ s.objectKey ∧ byte '\n' ∉ s.objectKey := by
  refine ⟨plain_of_readsBack, fun h => ?_⟩
  rw [← plain_table_iff] at h
  have hread := Table.read_print separators_ne (rows_ne_nil collectedStats) h
  rw [← writeStats_eq] at hread
  refine ⟨names, collectedStats.map fields, hread, names_eq, ?_⟩
  rw [List.forall₂_map_right_iff]
  exact List.forall₂_same.2 fun s _ => reads_fields s

/-- `GET /bucket/a,b`. -/
def getComma : Request :=
  { getObject with url := ⟨[], [], none, [], ascii "/bucket/a,b", [], false, false, []⟩ }

/-- An entry of an intercepted request whose key makes a field too many. -/
theorem comma_not_readsBack : ¬ ∀ collectedStats : List ProxyStatsEntry,
    (∀ s ∈ collectedStats, ∃ (mosa : MinioObjectStorageAdapter) (req : Request),
      mosa.shouldIntercept req = true ∧ s.objectKey =
      MinioObjectStorageAdapter.extractObjectKey req) →
      ReadsBack collectedStats (writeStats collectedStats) := by
  intro h
  have hreads := h [{ ProxyStatsEntry.zero with objectKey := ascii "/bucket/a,b?" }]
    (List.forall_mem_singleton.2
      ⟨⟨ascii "host.lima.internal:9000"⟩, getComma, by decide +kernel, by decide +kernel⟩)
  have hplain := List.forall_mem_singleton.1 (plain_of_readsBack hreads)
  exact hplain.1 (by decide +kernel)

end Main

end AutomaticCache
