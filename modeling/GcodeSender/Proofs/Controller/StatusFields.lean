import Mathlib.Data.List.Nodup
import GcodeSender.Controller.Status

/-!
# The fields of a status report

What a field says is read off it once (`Status.Entry`) and does not depend on the rest of the
report: a field that says nothing is inert, and every other writes the place of its key and no
other place. So entries about different places may be exchanged, and inert fields may be left out.
The main statement says so of whole reports: the order of fields with different keys does not
matter, and fields without a colon, with an unknown key or with a value that cannot be read may
stand anywhere.
-/
namespace GcodeSender

namespace Status

/-! ## What a field says -/

/-- What a field of a report says. -/
inductive Entry where
  /-- Where the machine is. -/
  | machinePosition (point : Point)
  /-- Where it is in the work coordinate system. -/
  | workPosition (point : Point)
  /-- What the work coordinate system adds. -/
  | workOffset (point : Point)
  /-- How much room the buffers have. -/
  | buffers (blocks bytes : Int)
  /-- The feed rate and the spindle speed. -/
  | feedAndSpeed (feed speed : Float)
  /-- The feed rate alone. -/
  | feed (feed : Float)
  /-- The override percentages. -/
  | overrides (percentages : Overrides)
  /-- Pins that are triggered. -/
  | pins (found : List Pin)
  /-- Accessories that run. -/
  | accessories (found : List Accessory)
  /-- The line in work. -/
  | lineNumber (number : Int)
deriving DecidableEq

/-- The key whose place a key writes. The two that write the feed rate share one. -/
def Key.place : Key → Key
  | feedAndSpeed => feed
  | key => key

/-- The place that an entry writes. -/
def Entry.place : Entry → Key
  | machinePosition _ => .machinePosition
  | workPosition _ => .workPosition
  | workOffset _ => .workOffset
  | buffers _ _ => .buffers
  | feedAndSpeed _ _ | feed _ => .feed
  | overrides _ => .overrides
  | pins _ => .pins
  | accessories _ => .accessories
  | lineNumber _ => .lineNumber

/-- What a value says by the rule of its key, if the rule can make anything of it. -/
def Key.read? (key : Key) (value : Bytes) : Option Entry :=
  match key with
  | machinePosition => (readPoint? value).map .machinePosition
  | workPosition => (readPoint? value).map .workPosition
  | workOffset => (readPoint? value).map .workOffset
  | buffers => (readBuffers? value).map fun (blocks, bytes) => .buffers blocks bytes
  | feedAndSpeed => (readFeedAndSpeed? value).map fun (rate, speed) => .feedAndSpeed rate speed
  | feed => (Decimal.readReal? value).map .feed
  | overrides => (readOverrides? value).map .overrides
  | pins =>
    let found := Pin.all.filter (value.contains ·.letter)
    if found.isEmpty then none else some (.pins found)
  | accessories =>
    let found := Accessory.all.filter (value.contains ·.letter)
    if found.isEmpty then none else some (.accessories found)
  | lineNumber => (Decimal.readInteger? value).map .lineNumber

/-- The key of a field, if it has a known one. -/
def key? (field : Bytes) : Option Key :=
  (cut? Byte.colon field).bind fun parts => Key.ofName? parts.1

/-- The place that the key of a field writes, if it has a known one. -/
def place? (field : Bytes) : Option Key := (key? field).map Key.place

/-- What a field says, if it says anything. -/
def said? (field : Bytes) : Option Entry :=
  (cut? Byte.colon field).bind fun parts => (Key.ofName? parts.1).bind (·.read? parts.2)

/-- A field says nothing: it has no colon, its key is unknown, or the rule of its key can make
nothing of its value. -/
inductive Inert (field : Bytes) : Prop where
  /-- There is no colon. -/
  | noColon (whole : cut? Byte.colon field = none)
  /-- The key is unknown. -/
  | unknownKey {name value : Bytes} (split : cut? Byte.colon field = some (name, value))
      (unknown : Key.ofName? name = none)
  /-- The value cannot be read. -/
  | badValue {name value : Bytes} {key : Key}
      (split : cut? Byte.colon field = some (name, value)) (known : Key.ofName? name = some key)
      (unread : key.read? value = none)

/-- The status with what an entry says. -/
def apply (status : Status) : Entry → Status
  | .machinePosition point => { status with machinePosition := some point }
  | .workPosition point => { status with workPosition := some point }
  | .workOffset point => { status with workOffset := some point }
  | .buffers blocks bytes => { status with freeBlocks := some blocks, freeBytes := some bytes }
  | .feedAndSpeed feed speed => { status with feed := some feed, spindleSpeed := some speed }
  | .feed feed => { status with feed := some feed }
  | .overrides percentages => { status with overrides := some percentages }
  | .pins found =>
    { status with
      pins := Pin.all.filter fun pin => status.pins.contains pin || found.contains pin }
  | .accessories found =>
    { status with
      accessories := Accessory.all.filter fun accessory =>
        status.accessories.contains accessory || found.contains accessory }
  | .lineNumber number => { status with lineNumber := some number }

variable {status : Status} {field : Bytes}

/-- An inert field says nothing. -/
theorem Inert.said?_eq_none (inert : Inert field) : said? field = none := by
  cases inert with
  | noColon whole => rw [Status.said?, whole, Option.bind_none]
  | unknownKey split unknown =>
    rw [Status.said?, split, Option.bind_some, unknown, Option.bind_none]
  | badValue split known unread =>
    rw [Status.said?, split, Option.bind_some, known, Option.bind_some, unread]

/-- What the rule of a key makes of a value is about the place of the key. -/
theorem Key.place_of_read? {key : Key} {value : Bytes} {entry : Entry}
    (found : key.read? value = some entry) : entry.place = key.place := by
  cases key with
  | pins | accessories =>
    simp only [read?, Option.ite_none_left_eq_some, Option.some.injEq] at found
    rw [← found.2]
    rfl
  | _ =>
    simp only [read?, Option.map_eq_some_iff] at found
    obtain ⟨_, _, rfl⟩ := found
    rfl

/-- What a field says is about the place of its key. -/
theorem place_of_said? {entry : Entry} (found : said? field = some entry) :
    place? field = some entry.place := by
  unfold said? at found
  rw [Option.bind_eq_some_iff] at found
  obtain ⟨⟨name, value⟩, split, found⟩ := found
  rw [Option.bind_eq_some_iff] at found
  obtain ⟨key, known, read⟩ := found
  rw [place?, key?, split, Option.bind_some, known, Option.map_some, Key.place_of_read? read]

/-! ## Fields as entries -/

/-- Every pin is among all pins. -/
theorem Pin.mem_all (pin : Pin) : pin ∈ Pin.all := by
  cases pin <;> decide

/-- Every accessory is among all accessories. -/
theorem Accessory.mem_all (accessory : Accessory) : accessory ∈ Accessory.all := by
  cases accessory <;> decide

/-- A status has its pins and accessories in the fixed order, each at most once. -/
structure Ordered (status : Status) : Prop where
  /-- The pins are in order. -/
  pins : Pin.all.filter (status.pins.contains ·) = status.pins
  /-- The accessories are in order. -/
  accessories : Accessory.all.filter (status.accessories.contains ·) = status.accessories

/-- The status of a state token has no pins and no accessories. -/
theorem ordered_ofStateToken (token : Bytes) : (ofStateToken token).Ordered := by
  unfold ofStateToken
  split <;> exact ⟨by simp, by simp⟩

/-- An entry leaves pins and accessories in order. -/
theorem Ordered.apply (ordered : status.Ordered) (entry : Entry) :
    (status.apply entry).Ordered := by
  cases entry with
  | pins found =>
    refine ⟨?_, ordered.accessories⟩
    simp only [Status.apply]
    refine List.filter_congr fun pin _ => ?_
    simp [Pin.mem_all]
  | accessories found =>
    refine ⟨ordered.pins, ?_⟩
    simp only [Status.apply]
    refine List.filter_congr fun accessory _ => ?_
    simp [Accessory.mem_all]
  | _ => exact ⟨ordered.pins, ordered.accessories⟩

/-- Pins are added by their letters as those that a text names. -/
theorem addPins_eq (pins : List Pin) (text : Bytes) :
    addPins pins text = Pin.all.filter fun pin =>
      pins.contains pin || (Pin.all.filter (text.contains ·.letter)).contains pin := by
  refine List.filter_congr fun pin _ => ?_
  simp [Pin.mem_all]

/-- Accessories are added by their letters as those that a text names. -/
theorem addAccessories_eq (accessories : List Accessory) (text : Bytes) :
    addAccessories accessories text = Accessory.all.filter fun accessory =>
      accessories.contains accessory ||
        (Accessory.all.filter (text.contains ·.letter)).contains accessory := by
  refine List.filter_congr fun accessory _ => ?_
  simp [Accessory.mem_all]

/-- A value is put into a status as what it says. -/
theorem Ordered.put_eq (ordered : status.Ordered) (key : Key) (value : Bytes) :
    status.put key value = (key.read? value).elim status status.apply := by
  cases key with
  | pins =>
    simp only [put, Key.read?, addPins_eq]
    split
    · next none =>
      simp only [List.isEmpty_iff.mp none, List.contains_nil, Bool.or_false, ordered.pins,
        Option.elim_none]
    · rfl
  | accessories =>
    simp only [put, Key.read?, addAccessories_eq]
    split
    · next none =>
      simp only [List.isEmpty_iff.mp none, List.contains_nil, Bool.or_false,
        ordered.accessories, Option.elim_none]
    · rfl
  | _ =>
    rw [put, Key.read?, Option.elim_map]
    rfl

/-- A field is added to a status as what it says. -/
theorem Ordered.addField_eq (ordered : status.Ordered) (field : Bytes) :
    status.addField field = (said? field).elim status status.apply := by
  unfold said?
  cases split : cut? Byte.colon field with
  | none => exact addField_of_no_colon split
  | some parts =>
    obtain ⟨name, value⟩ := parts
    rw [Option.bind_some]
    cases known : Key.ofName? name with
    | none => exact addField_of_unknown_key split known
    | some key => simpa [addField, split, known] using ordered.put_eq key value

/-- Fields are added to a status as what they say. -/
theorem Ordered.foldl_addField (ordered : status.Ordered) (fields : List Bytes) :
    fields.foldl addField status = (fields.filterMap said?).foldl Status.apply status := by
  induction fields generalizing status with
  | nil => rfl
  | cons field others ih =>
    rw [List.foldl_cons, ordered.addField_eq]
    cases said : said? field with
    | none => rw [List.filterMap_cons_none said, Option.elim_none, ih ordered]
    | some entry =>
      rw [List.filterMap_cons_some said, Option.elim_some, ih (ordered.apply entry),
        List.foldl_cons]

/-! ## Entries in any order -/

/-- Entries about different places may be exchanged. -/
theorem apply_comm {first second : Entry} (other : first.place ≠ second.place) (status : Status) :
    (status.apply first).apply second = (status.apply second).apply first := by
  cases first <;> cases second <;> first | rfl | exact absurd rfl other

/-- Entries about different places may come in any order. -/
theorem foldl_apply_of_perm {entries others : List Entry} (same : entries.Perm others)
    (distinct : (entries.map Entry.place).Nodup) (status : Status) :
    entries.foldl apply status = others.foldl apply status := by
  apply same.foldl_eq'
  intro first before second after current
  by_cases place : first.place = second.place
  · rw [List.inj_on_of_nodup_map distinct before after place]
  · exact apply_comm place current

/-- Entries are about no more places than the keys of their fields. -/
theorem places_sublist (fields : List Bytes) :
    ((fields.filterMap said?).map Entry.place).Sublist (fields.filterMap place?) := by
  induction fields with
  | nil => exact .slnil
  | cons field others ih =>
    cases said : said? field with
    | none =>
      rw [List.filterMap_cons_none said, List.filterMap_cons]
      split
      · exact ih
      · exact ih.cons _
    | some entry =>
      rw [List.filterMap_cons_some said, List.filterMap_cons_some (place_of_said? said),
        List.map_cons]
      exact ih.cons_cons _

/-! ## Reports -/

/-- The line of a report with a state token and fields. -/
def reportLine (token : Bytes) (fields : List Bytes) : Bytes :=
  Byte.less :: (joinWith [Byte.bar] (token :: fields) ++ [Byte.greater])

/-- Texts can be the parts of a report: none is empty or holds a bar. -/
structure IsReport (token : Bytes) (fields : List Bytes) : Prop where
  /-- No part holds a bar. -/
  clean : ∀ part ∈ token :: fields, Byte.bar ∉ part
  /-- No part is empty. -/
  filled : ∀ part ∈ token :: fields, part ≠ []

/-- Fields with inert fields put in anywhere. -/
inductive Padded : List Bytes → List Bytes → Prop where
  /-- No field is needed. -/
  | nil : Padded [] []
  /-- A field is kept. -/
  | keep {fields more : List Bytes} (field : Bytes) (padded : Padded fields more) :
      Padded (field :: fields) (field :: more)
  /-- An inert field is put in. -/
  | inert {field : Bytes} {fields more : List Bytes} (inert : Inert field)
      (padded : Padded fields more) : Padded fields (field :: more)

variable {token : Bytes} {fields : List Bytes}

/-- Fields in another order are parts of a report too. -/
theorem IsReport.of_perm (report : IsReport token fields) {others : List Bytes}
    (same : fields.Perm others) : IsReport token others := by
  have parts : ∀ part ∈ token :: others, part ∈ token :: fields :=
    fun part member => (same.cons token).mem_iff.mpr member
  exact ⟨fun part member => report.clean part (parts part member),
    fun part member => report.filled part (parts part member)⟩

/-- Inert fields say nothing. -/
theorem Padded.filterMap_said? {more : List Bytes} (padded : Padded fields more) :
    more.filterMap said? = fields.filterMap said? := by
  induction padded with
  | nil => rfl
  | keep field padded ih => rw [List.filterMap_cons, List.filterMap_cons, ih]
  | inert inert padded ih => rw [List.filterMap_cons_none inert.said?_eq_none, ih]

/-- Between its angle brackets a report is its parts with bars between them. -/
theorem unframe?_reportLine (token : Bytes) (fields : List Bytes) :
    unframe? (trim (reportLine token fields)) = some (joinWith [Byte.bar] (token :: fields)) := by
  let inner := joinWith [Byte.bar] (token :: fields)
  have start : trimStart (Byte.less :: (inner ++ [Byte.greater])) =
      Byte.less :: (inner ++ [Byte.greater]) := trimStart_cons_of_not_blank (by decide)
  have whole : trimEnd (Byte.less :: inner ++ [Byte.greater]) =
      Byte.less :: inner ++ [Byte.greater] := trimEnd_append_of_not_blank (by decide)
  have framed : trim (reportLine token fields) = Byte.less :: (inner ++ [Byte.greater]) := by
    rw [trim, reportLine, start]
    exact whole
  rw [framed, unframe?, if_pos ⟨rfl, by simp⟩]
  simp [inner]

/-- A report is read as the entries of its fields on top of its state token. -/
theorem IsReport.ofLine?_eq (report : IsReport token fields) :
    ofLine? (reportLine token fields) =
      some ((fields.filterMap said?).foldl apply (ofStateToken token)) := by
  have parts : pieces Byte.bar (joinWith [Byte.bar] (token :: fields)) = token :: fields :=
    pieces_joinWith report.clean report.filled
  rw [ofLine?, unframe?_reportLine, Option.bind_eq_bind, Option.bind_some, parts]
  rw [← (ordered_ofStateToken token).foldl_addField fields]

/-- A report gives one status in whatever order its fields stand, if no two of them have known
keys for one place, and with any inert fields put in between them. -/
theorem fields_in_any_order_among_inert (report : IsReport token fields) :
    ∃ status, ofLine? (reportLine token fields) = some status ∧
      ((fields.filterMap place?).Nodup → ∀ others, fields.Perm others →
        ofLine? (reportLine token others) = some status) ∧
      ∀ more, Padded fields more → IsReport token more →
        ofLine? (reportLine token more) = some status := by
  refine ⟨_, report.ofLine?_eq, ?_, ?_⟩
  · intro distinct others same
    have places : ((fields.filterMap said?).map Entry.place).Nodup :=
      distinct.sublist (places_sublist fields)
    rw [(report.of_perm same).ofLine?_eq,
      foldl_apply_of_perm (same.filterMap said?) places (ofStateToken token)]
  · intro more padded whole
    rw [whole.ofLine?_eq, padded.filterMap_said?]

/-- A report of a run with three fields turned around, and with fields that say nothing. -/
theorem fields_in_any_order_among_inert_of_run :
    IsReport (ascii "Run") [ascii "MPos:1,-2.5,3", ascii "FS:500,0", ascii "Pn:XZ"] ∧
      ([ascii "MPos:1,-2.5,3", ascii "FS:500,0", ascii "Pn:XZ"].filterMap place?).Nodup ∧
      ∃ status, ofLine? (ascii "<Run|MPos:1,-2.5,3|FS:500,0|Pn:XZ>") = some status ∧
        ofLine? (ascii "<Run|Pn:XZ|FS:500,0|MPos:1,-2.5,3>") = some status ∧
        ofLine? (ascii "<Run|MPos:1,2|MPos:1,-2.5,3|T:4|FS:500,0|Pn:XZ|Bf:15|idle>") =
          some status := by
  have report : IsReport (ascii "Run")
      [ascii "MPos:1,-2.5,3", ascii "FS:500,0", ascii "Pn:XZ"] :=
    ⟨by decide +kernel, by decide +kernel⟩
  have distinct :
      ([ascii "MPos:1,-2.5,3", ascii "FS:500,0", ascii "Pn:XZ"].filterMap place?).Nodup := by
    decide +kernel
  have twoAxes : Inert (ascii "MPos:1,2") :=
    @Inert.badValue _ (ascii "MPos") (ascii "1,2") .machinePosition (by decide +kernel)
      (by decide +kernel) (by decide +kernel)
  have unknown : Inert (ascii "T:4") :=
    @Inert.unknownKey _ (ascii "T") (ascii "4") (by decide +kernel) (by decide +kernel)
  have oneBuffer : Inert (ascii "Bf:15") :=
    @Inert.badValue _ (ascii "Bf") (ascii "15") .buffers (by decide +kernel) (by decide +kernel)
      (by decide +kernel)
  have word : Inert (ascii "idle") := .noColon (by decide +kernel)
  have padded : Padded [ascii "MPos:1,-2.5,3", ascii "FS:500,0", ascii "Pn:XZ"]
      [ascii "MPos:1,2", ascii "MPos:1,-2.5,3", ascii "T:4", ascii "FS:500,0", ascii "Pn:XZ",
        ascii "Bf:15", ascii "idle"] :=
    .inert twoAxes <| .keep _ <| .inert unknown <| .keep _ <| .keep _ <| .inert oneBuffer <|
      .inert word .nil
  obtain ⟨status, read, turned, filled⟩ := fields_in_any_order_among_inert report
  exact ⟨report, distinct, status, read, turned distinct _ (List.reverse_perm _).symm,
    filled _ padded ⟨by decide +kernel, by decide +kernel⟩⟩

/-- Both keys that write the feed rate in one report: the last one counts. -/
example : ofLine? (ascii "<Run|F:1|FS:2,0>") ≠ ofLine? (ascii "<Run|FS:2,0|F:1>") := by
  decide +kernel

end Status

end GcodeSender
