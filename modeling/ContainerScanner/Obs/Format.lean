import ContainerScanner.Foundation.JsonText
import ContainerScanner.Obs.Logging

/-!
# A line for every record

`JsonFormatter` of `app/obs/logging.py`, under the `StreamHandler` that `make_handler` installs. A
record is written as one JSON object and a line break. What the message, a bound field, a caller's
`extra` or the text of an exception contains makes no difference to that, since a text is printable
ASCII throughout.

How `json.dumps` writes a Python object, with `default=str`, is a parameter: a function to the
values that JSON has. No text of a record has a surrogate in it, since these are written like the
characters they encode (`Foundation.JsonText`).

## Main definitions

* `Record` — what the formatter reads of a `LogRecord`
* `payload`, `format` — its fields, and its line
* `written` — what a handler has written after some records
* `lines` — what a reader of the stream reads, line by line

## Main results

* `get?_payload` — an exception goes before an `extra`, which goes before a bound field
* `written_faithful` — the lines are the records, and the stream says what they carry
-/

namespace ContainerScanner

open Foundation JsonText

namespace Obs

/-- `_RESERVED`: the attributes of every `LogRecord`, and the four that are named besides. -/
def reserved : List String :=
  ["name", "msg", "args", "levelname", "levelno", "pathname", "filename", "module", "exc_info",
    "exc_text", "stack_info", "lineno", "funcName", "created", "msecs", "relativeCreated", "thread",
    "threadName", "processName", "process", "asctime", "message", "taskName", "context"]

structure Record (ν : Type) where
  /-- `created`, as the formatter writes it. -/
  ts : String
  levelname : String
  name : String
  /-- `getMessage()`. -/
  message : String
  context : Fields ν
  /-- The attributes that are not its own. -/
  extra : Fields ν
  /-- `formatException(exc_info)`. -/
  error : Option String

section Format

variable {ν : Type} (encode : ν → Value) (service : String)

def encoded (entries : List (String × ν)) : List (String × Value) :=
  entries.map fun e => (e.1, encode e.2)

/-- The attributes that belong in the payload. -/
def Record.attributes (record : Record ν) : List (String × ν) :=
  record.extra.entries.filter fun e => !reserved.contains e.1

/-- What every line starts with. -/
def Record.heading (record : Record ν) : List (String × Value) :=
  [("ts", .str record.ts), ("level", .str record.levelname), ("service", .str service),
    ("logger", .str record.name), ("msg", .str record.message)]

def Record.ending (record : Record ν) : List (String × Value) :=
  match record.error with
  | none => []
  | some text => [("error", .str text)]

/-- Written one after the other, in this order. -/
def payload (record : Record ν) : Fields Value :=
  Dict.ofList (record.heading service ++ encoded encode record.context.entries ++
    encoded encode record.attributes ++ record.ending)

/-- `JsonFormatter.format`. -/
def format (record : Record ν) : List Char := dumps (.dict (payload encode service record).entries)

/-- `StreamHandler.emit`, for each record. -/
def written (records : List (Record ν)) : List Char :=
  records.flatMap fun record => format encode service record ++ ['\n']

/-- A text, line by line. -/
def lines : List Char → List (List Char)
  | [] => []
  | c :: cs =>
    if c = '\n' then [] :: lines cs
    else
      match lines cs with
      | [] => [[c]]
      | line :: rest => (c :: line) :: rest

/-! ### What a line carries -/

variable {encode service} {record : Record ν}

theorem map_fst_encoded (entries : List (String × ν)) :
    (encoded encode entries).map Prod.fst = entries.map Prod.fst := by
  rw [encoded, List.map_map]
  rfl

theorem lookup_encoded (entries : List (String × ν)) (key : String) :
    (encoded encode entries).lookup key = (entries.lookup key).map encode := by
  induction entries with
  | nil => rfl
  | cons e entries ih =>
    rw [encoded, List.map_cons, Dict.lookup_cons_eq_ite, Dict.lookup_cons_eq_ite]
    split
    · rfl
    · exact ih

theorem lookup_of_notMem {β : Type} {l : List (String × β)} {key : String}
    (h : key ∉ l.map Prod.fst) : l.lookup key = none := by
  induction l with
  | nil => rfl
  | cons e l ih =>
    rw [List.map_cons, List.mem_cons, not_or] at h
    rw [Dict.lookup_cons_eq_ite, if_neg h.1]
    exact ih h.2

theorem Record.nodup_attributes (record : Record ν) :
    (record.attributes.map Prod.fst).Nodup :=
  record.extra.nodup.sublist (List.filter_sublist.map Prod.fst)

theorem Record.nodup_ending (record : Record ν) : (record.ending.map Prod.fst).Nodup := by
  rw [Record.ending]
  cases record.error with
  | none => exact List.nodup_nil
  | some text => exact List.nodup_singleton _

theorem Record.nodup_heading (record : Record ν) :
    ((record.heading service).map Prod.fst).Nodup := by
  show ["ts", "level", "service", "logger", "msg"].Nodup
  decide

/-- What is written last is what is read. -/
theorem get?_ofList_append {l l' : List (String × Value)} (h : (l'.map Prod.fst).Nodup)
    (key : String) :
    (Dict.ofList (l ++ l')).get? key = (l'.lookup key).or ((Dict.ofList l).get? key) := by
  rw [Dict.ofList, List.foldl_append]
  exact Dict.get?_foldl_set l' h _ key

/-- **Where the fields of a line come from**: an exception goes before an `extra`, which goes before
a bound field. -/
theorem get?_payload (record : Record ν) (key : String) :
    (payload encode service record).get? key =
      (record.ending.lookup key).or (((record.attributes.lookup key).map encode).or
        (((record.context.get? key).map encode).or ((record.heading service).lookup key))) := by
  have hattributes : ((encoded encode record.attributes).map Prod.fst).Nodup := by
    rw [map_fst_encoded]
    exact record.nodup_attributes
  have hcontext : ((encoded encode record.context.entries).map Prod.fst).Nodup := by
    rw [map_fst_encoded]
    exact record.context.nodup
  rw [payload, get?_ofList_append record.nodup_ending, get?_ofList_append hattributes,
    get?_ofList_append hcontext, Dict.get?_ofList record.nodup_heading, lookup_encoded,
    lookup_encoded]
  rfl

/-- A field that only the context has. -/
theorem get?_payload_of_context {key : String}
    (hkey : key ∉ ["ts", "level", "service", "logger", "msg", "error"])
    (hextra : record.extra.get? key = none) :
    (payload encode service record).get? key = (record.context.get? key).map encode := by
  have hending : record.ending.lookup key = none := by
    rw [Record.ending]
    cases record.error with
    | none => rfl
    | some text =>
      exact lookup_of_notMem fun h =>
        hkey (List.mem_append_right ["ts", "level", "service", "logger", "msg"] h)
  have hattributes : record.attributes.lookup key = none :=
    lookup_of_notMem fun h => Dict.get?_eq_none_iff.mp hextra
      ((List.filter_sublist.map Prod.fst).subset h)
  have hheading : (record.heading service).lookup key = none :=
    lookup_of_notMem fun h => hkey (List.mem_append_left ["error"] h)
  rw [get?_payload, hending, hattributes, hheading, Option.or_none]
  rfl

/-! ### The stream -/

/-- A text without a line break, and a line break. -/
theorem lines_append {text : List Char} (htext : '\n' ∉ text) (rest : List Char) :
    lines (text ++ '\n' :: rest) = text :: lines rest := by
  induction text with
  | nil => rw [List.nil_append, lines, if_pos rfl]
  | cons c text ih =>
    rw [List.mem_cons, not_or] at htext
    rw [List.cons_append, lines, if_neg (Ne.symm htext.1), ih htext.2]

theorem newline_notMem_dumps (v : Value) : '\n' ∉ dumps v :=
  fun h => absurd (isPrintable_dumps v _ h) (by decide)

theorem lines_written (records : List (Record ν)) :
    lines (written encode service records) = records.map (format encode service) := by
  induction records with
  | nil => rfl
  | cons record records ih =>
    rw [List.map_cons, ← ih, written, List.flatMap_cons, List.append_assoc]
    exact lines_append (newline_notMem_dumps _) _

/-- A line says what its record carries. -/
theorem payload_eq_of_format {service' : String} {record' : Record ν}
    (h : format encode service record = format encode service' record') :
    payload encode service record = payload encode service' record' := by
  have hdict := dumps_injective h
  rw [Value.dict.injEq] at hdict
  exact Dict.ext_entries hdict

theorem payloads_eq_of_formats {service' : String} {records records' : List (Record ν)}
    (h : records.map (format encode service) = records'.map (format encode service')) :
    records.map (payload encode service) = records'.map (payload encode service') := by
  induction records generalizing records' with
  | nil =>
    rw [List.map_nil, eq_comm, List.map_eq_nil_iff] at h
    rw [h]
    rfl
  | cons record records ih =>
    cases records' with
    | nil => cases h
    | cons record' records' =>
      rw [List.map_cons, List.map_cons, List.cons.injEq] at h
      rw [List.map_cons, List.map_cons, payload_eq_of_format h.1, ih h.2]

/-- **One record, one line**: the lines of the stream are those of the records, whatever these
contain, and two streams are the same only if their records carry the same fields. -/
theorem written_faithful {ν : Type} (encode : ν → Value) (service : String)
    (records : List (Record ν)) :
    lines (written encode service records) = records.map (format encode service) ∧
      ∀ service' records', written encode service records = written encode service' records' →
        records.map (payload encode service) = records'.map (payload encode service') := by
  refine ⟨lines_written records, fun service' records' heq => payloads_eq_of_formats ?_⟩
  rw [← lines_written, ← lines_written, heq]

end Format

end Obs

end ContainerScanner
