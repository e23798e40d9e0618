import Ucollect.Construction.Majordomo.Merge

/-
This file proves that the merge of two files keeps the traffic of each client.
-/

namespace Ucollect.Majordomo.Merge
open Library List Option

section Lines

/-- This is a number of digits, with or without a fraction. -/
structure Numeral where
  whole : Text
  fraction : Text
  digits : ∀ char ∈ whole ++ fraction, char.isDigit = true
  filled : whole ≠ []

def Numeral.text (numeral : Numeral) : Text :=
  if numeral.fraction = [] then numeral.whole else numeral.whole ++ '.' :: numeral.fraction

def Numeral.value (numeral : Numeral) : ℚ :=
  decimal (numeral.whole ++ numeral.fraction) / 10 ^ numeral.fraction.length

theorem takeWhile_all {field : Char → Bool} {text : Text} (inside : ∀ char ∈ text, field char = true) :
    text.takeWhile field = text := by
  have all := @List.takeWhile_append_of_pos _ field text [] inside
  rwa [append_nil, takeWhile_nil, append_nil] at all

theorem dropWhile_all {field : Char → Bool} {text : Text} (inside : ∀ char ∈ text, field char = true) :
    text.dropWhile field = [] := by
  have all := @List.dropWhile_append_of_pos _ field text [] inside
  rwa [append_nil, dropWhile_nil] at all

theorem tonumber_text (numeral : Numeral) : tonumber numeral.text = some numeral.value := by
  have whole : ∀ char ∈ numeral.whole, char.isDigit = true :=
    fun char member => numeral.digits char (mem_append_left _ member)
  have fraction : ∀ char ∈ numeral.fraction, char.isDigit = true :=
    fun char member => numeral.digits char (mem_append_right _ member)
  rw [tonumber, Numeral.text]
  by_cases none : numeral.fraction = []
  · rw [if_pos none, takeWhile_all whole, dropWhile_all whole]
    simp [numeral.filled, Numeral.value, none]
  · have stops : ('.' :: numeral.fraction).takeWhile Char.isDigit = [] := rfl
    have rest : ('.' :: numeral.fraction).dropWhile Char.isDigit = '.' :: numeral.fraction := rfl
    rw [if_neg none, takeWhile_append_of_pos whole, dropWhile_append_of_pos whole, stops, rest,
      append_nil]
    exact if_pos ⟨List.all_eq_true.mpr fraction,
      append_ne_nil_of_left_ne_nil numeral.filled _⟩

/-- The text is one or more characters of the field. -/
def Fits (field : Char → Bool) (text : Text) : Prop := text ≠ [] ∧ ∀ char ∈ text, field char = true

theorem numeral_fits (numeral : Numeral) : Fits isNumber numeral.text := by
  have digits : ∀ char ∈ numeral.whole ++ numeral.fraction, isNumber char = true := by
    intro char member
    rw [isNumber, numeral.digits char member, Bool.true_or]
  rw [Numeral.text]
  split
  case isTrue none =>
    rw [none, append_nil] at digits
    exact ⟨numeral.filled, digits⟩
  case isFalse =>
    refine ⟨append_ne_nil_of_left_ne_nil numeral.filled _, fun char member => ?_⟩
    rcases mem_append.mp member with whole | fraction
    · exact digits char (mem_append_left _ whole)
    · rcases mem_cons.mp fraction with rfl | inside
      · rfl
      · exact digits char (mem_append_right _ inside)

/-- The parser gets back the columns that were put together. -/
theorem parseLine_concat {fields : List (Char → Bool)} {columns : List Text}
    (fits : List.Forall₂ (fun field column => Fits field column ∧ field ',' = false) fields columns)
    (more : List (Char → Bool)) : parseLine (fields ++ more) (concat columns) = columns := by
  induction fits with
  | nil => cases more <;> rfl
  | @cons field column fields columns fit rest ih =>
    obtain ⟨⟨filled, inside⟩, comma⟩ := fit
    rw [cons_append, parseLine, matchField]
    cases rest with
    | nil =>
      rw [concat, takeWhile_all inside, dropWhile_all inside, if_neg filled]
      exact congrArg (column :: ·) ih
    | @cons _ next _ later after _ =>
      obtain ⟨char, chars, shape⟩ := exists_cons_of_ne_nil after.1.1
      have start : concat (next :: later) = char :: (concat (next :: later)).tail := by
        cases later with
        | nil => rw [concat, shape, tail_cons]
        | cons => rw [concat.eq_3 _ _ (cons_ne_nil _ _), shape, cons_append, tail_cons]
      have apart : decide (char = ',') = false := by
        rw [decide_eq_false_iff_not]
        rintro rfl
        have known := after.1.2 ',' (by rw [shape]; exact mem_cons_self)
        rw [after.2] at known
        cases known
      have stops : (',' :: concat (next :: later)).takeWhile field = [] := by
        rw [takeWhile_cons_of_neg (by rw [comma]; decide)]
      have skips : ((',' :: concat (next :: later)).dropWhile field).dropWhile (· = ',') =
          concat (next :: later) := by
        rw [dropWhile_cons_of_neg (by rw [comma]; decide), dropWhile_cons_of_pos (by rfl), start,
          dropWhile_cons_of_neg (by rw [apart]; decide)]
      rw [concat.eq_3 _ _ (cons_ne_nil _ _), takeWhile_append_of_pos inside,
        dropWhile_append_of_pos inside, stops, skips, append_nil, if_neg filled]
      exact congrArg (column :: ·) ih

/-- This is a line that the plugin or the script writes. -/
structure Line where
  proto : Text
  src : Text
  dst : Text
  port : Text
  numbers : Counter → Numeral
  resolvedName : Option Text
  protoFits : Fits isWord proto
  srcFits : Fits isAddress src
  dstFits : Fits isAddress dst
  portFits : Fits isWord port
  nameFits : ∀ name, resolvedName = some name → Fits isName name

def Line.columns (line : Line) : List Text :=
  [line.proto, line.src, line.dst, line.port, (line.numbers .dCount).text,
    (line.numbers .dSize).text, (line.numbers .dDataSize).text, (line.numbers .uCount).text,
    (line.numbers .uSize).text, (line.numbers .uDataSize).text] ++ line.resolvedName.toList

def Line.text (line : Line) : Text := concat line.columns

def Line.record (line : Line) : Record where
  proto := line.proto
  src := line.src
  dst := line.dst
  port := line.port
  counters counter := (line.numbers counter).value
  resolvedName := line.resolvedName

theorem parseLine_text (line : Line) : parseLine dd line.text = line.columns := by
  have number : ∀ counter, Fits isNumber (line.numbers counter).text ∧ isNumber ',' = false :=
    fun counter => ⟨numeral_fits _, rfl⟩
  have start : List.Forall₂ (fun field column => Fits field column ∧ field ',' = false)
      (dd.take 10) (line.columns.take 10) :=
    .cons ⟨line.protoFits, rfl⟩ <| .cons ⟨line.srcFits, rfl⟩ <| .cons ⟨line.dstFits, rfl⟩ <|
      .cons ⟨line.portFits, rfl⟩ <| .cons (number .dCount) <| .cons (number .dSize) <|
      .cons (number .dDataSize) <| .cons (number .uCount) <| .cons (number .uSize) <|
      .cons (number .uDataSize) .nil
  rw [Line.text]
  cases named : line.resolvedName with
  | none =>
    have columns : line.columns = line.columns.take 10 := by rw [Line.columns, named]; rfl
    rw [columns]
    exact parseLine_concat start [isName]
  | some name =>
    have columns : line.columns = line.columns.take 10 ++ [name] := by
      rw [Line.columns, named]
      rfl
    rw [columns]
    exact parseLine_concat (rel_append start
      (.cons ⟨line.nameFits name named, rfl⟩ .nil)) []

theorem toRecord_columns (line : Line) : toRecord line.columns = some (some line.record) := by
  rw [Line.columns]
  simp only [cons_append, nil_append, toRecord, tonumber_text]
  have named : line.resolvedName.toList.head? = line.resolvedName := by
    cases line.resolvedName <;> rfl
  rw [named]
  refine congrArg (fun counters => some (some
    (⟨line.proto, line.src, line.dst, line.port, counters, line.resolvedName⟩ : Record))) ?_
  funext counter
  cases counter <;> rfl

/-- A file of such lines is read without an error. -/
theorem readFile_texts (lines : List Line) (db : Db) : readFile (lines.map Line.text) db =
    some ((lines.map Line.record).foldl Db.add db) := by
  induction lines generalizing db with
  | nil => rfl
  | cons line lines ih =>
    rw [map_cons, readFile, parseLine_text, toRecord_columns]
    exact ih _

end Lines

section Reading

variable {db : Db} {records : List Record} {record : Record}

/-- This is the item of the key after these records. -/
def entry (records : List Record) (addr key : Text) : Option Item :=
  (records.filter fun record => record.src = addr ∧ record.key = key).foldl
    (fun item record => some (record.addTo item)) none

/-- The database holds what was read. -/
structure Db.Holds (db : Db) (records : List Record) : Prop where
  distinct : (db.map Prod.fst).Nodup
  keys : ∀ addr, ((db.items addr).map Prod.fst).Nodup
  entries : ∀ addr key, (db.items addr).lookup key = entry records addr key

theorem items_add (db : Db) (record : Record) (addr : Text) : (db.add record).items addr =
    if addr = record.src then upsert record.key record.addTo (db.items record.src)
    else db.items addr := by
  rw [Db.items, Db.add, lookup_upsert]
  split
  · rfl
  · rfl

theorem Db.Holds.add (holds : db.Holds records) (record : Record) :
    (db.add record).Holds (records ++ [record]) := by
  constructor
  case distinct => exact nodup_upsert holds.distinct
  case keys =>
    intro addr
    rw [items_add]
    split
    · exact nodup_upsert (holds.keys _)
    · exact holds.keys addr
  case entries =>
    intro addr key
    rw [items_add, entry, filter_append, foldl_append]
    by_cases client : addr = record.src
    · rw [if_pos client, lookup_upsert, holds.entries, holds.entries]
      by_cases same : key = record.key
      · rw [if_pos same, ← client, ← same, filter_cons_of_pos (by simp [client, same])]
        rfl
      · rw [if_neg same, ← client, filter_cons_of_neg (by simp [Ne.symm same])]
        rfl
    · rw [if_neg client, holds.entries, filter_cons_of_neg (by simp [Ne.symm client])]
      rfl

/-- Reading goes on where the last file ended. -/
theorem Db.Holds.read (holds : db.Holds records) (more : List Record) :
    (more.foldl Db.add db).Holds (records ++ more) := by
  induction more generalizing db records with
  | nil =>
    rw [append_nil]
    exact holds
  | cons record more ih =>
    have later := ih (holds.add record)
    rwa [append_assoc] at later

theorem empty_holds : Db.Holds [] [] :=
  ⟨nodup_nil, fun _ => nodup_nil, fun _ _ => rfl⟩

/-- These are the sums of the records. -/
def sums (records : List Record) : Counter → ℚ := (records.map Record.counters).sum

def own (records : List Record) (addr key : Text) : Counter → ℚ :=
  sums (records.filter fun record => record.src = addr ∧ record.key = key)

theorem entry_counters {addr key : Text} {item : Item} (found : entry records addr key = some item) :
    item.counters = own records addr key := by
  have folds : ∀ (records : List Record) (start : Option Item),
      (((records.foldl (fun item record => some (record.addTo item)) start).map
        Item.counters).getD 0) = (start.map Item.counters).getD 0 + sums records := by
    intro records
    induction records with
    | nil => exact fun start => (add_zero _).symm
    | cons record records ih =>
      intro start
      rw [foldl_cons, ih, sums, sums, map_cons, sum_cons, ← add_assoc]
      congr 1
      cases start <;> rfl
  have all := folds (records.filter fun record => record.src = addr ∧ record.key = key) none
  rw [← entry, found] at all
  exact all.trans (zero_add _)

/-- There is an item exactly for the keys of the records. -/
theorem entry_isSome (records : List Record) (addr key : Text) :
    (entry records addr key).isSome = true ↔
      key ∈ (records.filter fun record => record.src = addr).map Record.key := by
  have folds : ∀ (records : List Record) (start : Option Item),
      (records.foldl (fun item record => some (record.addTo item)) start).isSome = true ↔
        start.isSome = true ∨ records ≠ [] := by
    intro records
    induction records with
    | nil => simp
    | cons record records ih =>
      intro start
      rw [foldl_cons, ih]
      simp
  rw [entry, folds, ne_eq, filter_eq_nil_iff, List.mem_map]
  simp only [isSome_none, mem_filter, decide_eq_true_eq]
  grind

end Reading

section Totals

variable {db : Db} {records : List Record} {items : Items}

def total (items : Items) : Counter → ℚ := (items.map fun entry => entry.2.counters).sum

def ofClient (records : List Record) (addr : Text) : List Record :=
  records.filter fun record => record.src = addr

/-- These are the different items of a client. -/
def itemKeys (records : List Record) (addr : Text) : List Text :=
  ((ofClient records addr).map Record.key).dedup

theorem own_eq (records : List Record) (addr key : Text) : own records addr key =
    sums ((ofClient records addr).filter fun record => record.key = key) := by
  rw [own, ofClient, List.filter_filter]
  congr 1
  apply filter_congr
  intro record _
  rw [Bool.and_comm, Bool.decide_and]

section

variable (holds : db.Holds records)
include holds

theorem Db.Holds.counters {addr : Text} {row : Text × Item} (member : row ∈ db.items addr) :
    row.2.counters = own records addr row.1 :=
  entry_counters ((holds.entries addr row.1).symm.trans
    ((mem_iff_lookup (holds.keys addr)).mp member))

theorem Db.Holds.mem_keys (addr key : Text) :
    key ∈ (db.items addr).map Prod.fst ↔ key ∈ itemKeys records addr := by
  rw [mem_names_iff (holds.keys addr), holds.entries, entry_isSome, itemKeys, mem_dedup, ofClient]

theorem Db.Holds.length (addr : Text) :
    (db.items addr).length = (itemKeys records addr).length := by
  have same := (perm_ext_iff_of_nodup (holds.keys addr) (nodup_dedup _)).mpr
    (holds.mem_keys addr)
  rw [← length_map Prod.fst, same.length_eq]
  rfl

/-- Before the elimination, the items of a client have all its traffic. -/
theorem Db.Holds.total (addr : Text) : total (db.items addr) = sums (ofClient records addr) := by
  have rows : (db.items addr).map (fun row => row.2.counters) =
      ((db.items addr).map Prod.fst).map fun key =>
        sums ((ofClient records addr).filter fun record => record.key = key) := by
    rw [List.map_map]
    apply map_congr_left
    intro row member
    rw [holds.counters member, own_eq]
    rfl
  rw [Merge.total, rows]
  have classes := sum_classes (holds.keys addr) (ofClient records addr) Record.key Record.counters
  refine classes.trans ?_
  rw [filter_eq_self.mpr, sums]
  intro record member
  have known := (holds.mem_keys addr record.key).mpr
    (mem_dedup.mpr (List.mem_map_of_mem member))
  exact @decide_eq_true _ (_) known

end

end Totals

section Elimination

variable {others : Text} {maxItems : Nat} {items : Items}

/-- The items that are not the one of the others. -/
def aside (others : Text) (items : Items) : Items := items.filter fun row => row.1 ≠ others

theorem eliminateLoop_append (i : Nat) (first second newItems : Items) :
    eliminateLoop others maxItems i (first ++ second) newItems =
      eliminateLoop others maxItems (i + first.length) second
        (eliminateLoop others maxItems i first newItems) := by
  induction first generalizing i newItems with
  | nil => rfl
  | cons row first ih =>
    obtain ⟨key, value⟩ := row
    rw [cons_append, eliminateLoop, ih, eliminateLoop, length_cons, Nat.add_assoc, Nat.add_comm 1]

/-- The first items keep their counters. -/
theorem eliminateLoop_kept {i : Nat} (rows newItems : Items) (below : i + rows.length ≤ maxItems + 1)
    (distinct : (newItems.map Prod.fst ++ (aside others rows).map Prod.fst).Nodup) :
    eliminateLoop others maxItems i rows newItems = newItems ++ aside others rows := by
  induction rows generalizing i newItems with
  | nil => exact (append_nil _).symm
  | cons row rows ih =>
    obtain ⟨key, value⟩ := row
    rw [length_cons] at below
    rw [eliminateLoop, if_neg (by omega)]
    by_cases other : key = others
    · have skips : aside others ((key, value) :: rows) = aside others rows :=
        filter_cons_of_neg (by simp [other])
      rw [skips] at distinct ⊢
      rw [if_pos other]
      exact ih newItems (by omega) distinct
    · have takes : aside others ((key, value) :: rows) = (key, value) :: aside others rows :=
        filter_cons_of_pos (by simp [other])
      rw [takes] at distinct ⊢
      have absent : key ∉ newItems.map Prod.fst := by
        intro present
        exact (disjoint_of_nodup_append distinct) present mem_cons_self
      rw [if_neg other, upsert_of_not_mem absent, ih _ (by omega), append_assoc, singleton_append]
      rw [map_append, map_singleton, append_assoc]
      exact distinct

/-- The other items are added to the one of the others. -/
theorem eliminateLoop_dropped {i : Nat} (rows kept : Items) (item : Item) (above : maxItems < i) :
    eliminateLoop others maxItems i rows ((others, item) :: kept) =
      (others, (aside others rows).foldl (fun item row => item.plus row.2) item) :: kept := by
  induction rows generalizing i item with
  | nil => rfl
  | cons row rows ih =>
    obtain ⟨key, value⟩ := row
    rw [eliminateLoop]
    by_cases other : key = others
    · have skips : aside others ((key, value) :: rows) = aside others rows :=
        filter_cons_of_neg (by simp [other])
      rw [if_neg (fun both => both.2 other), if_pos other, ih _ (by omega), skips]
    · have takes : aside others ((key, value) :: rows) = (key, value) :: aside others rows :=
        filter_cons_of_pos (by simp [other])
      rw [if_pos ⟨above, other⟩, upsert, if_pos rfl, ih _ (by omega), takes]
      rfl

theorem sorted_perm (pairs : Pairs) (items : Items) (sortBy : Counter) :
    (getSortedItems pairs items sortBy).Perm items :=
  (perm_insertionSort _ _).trans (pairs.perm items)

theorem sorted_pairwise (pairs : Pairs) (items : Items) (sortBy : Counter) :
    (getSortedItems pairs items sortBy).Pairwise fun x y => y.2.counters sortBy ≤ x.2.counters sortBy := by
  have total : Std.Total fun x y : Text × Item => y.2.counters sortBy ≤ x.2.counters sortBy :=
    ⟨fun x y => le_total _ _⟩
  have trans : IsTrans (Text × Item) fun x y => y.2.counters sortBy ≤ x.2.counters sortBy :=
    ⟨fun x y z first second => second.trans first⟩
  exact pairwise_insertionSort _ _

/-- The new table has the item of the others and the first items behind it. -/
theorem eliminateItems_eq (pairs : Pairs) (addr : Text) {items : Items}
    (distinct : (items.map Prod.fst).Nodup) (many : maxItems < items.length) :
    eliminateItems pairs addr items maxItems =
      (othersKey addr, (aside (othersKey addr) ((getSortedItems pairs items .uCount).drop maxItems)).foldl
          (fun item row => item.plus row.2) ((items.lookup (othersKey addr)).getD ⟨0, none⟩)) ::
        aside (othersKey addr) ((getSortedItems pairs items .uCount).take maxItems) := by
  have perm := sorted_perm pairs items .uCount
  rw [eliminateItems]
  generalize getSortedItems pairs items .uCount = sorted at perm
  have size : (sorted.take maxItems).length = maxItems := by
    rw [length_take, perm.length_eq, Nat.min_eq_left many.le]
  have keeps : ([(othersKey addr, (items.lookup (othersKey addr)).getD ⟨0, none⟩)].map Prod.fst ++
      (aside (othersKey addr) (sorted.take maxItems)).map Prod.fst).Nodup := by
    rw [map_singleton, singleton_append, nodup_cons]
    constructor
    · intro member
      obtain ⟨row, inside, same⟩ := List.mem_map.mp member
      exact (of_decide_eq_true (mem_filter.mp inside).2) same
    · have sub : ((aside (othersKey addr) (sorted.take maxItems)).map Prod.fst).Sublist
          (sorted.map Prod.fst) := (filter_sublist.trans (take_sublist _ _)).map _
      exact sub.nodup ((perm.map Prod.fst).nodup_iff.mpr distinct)
  calc eliminateLoop (othersKey addr) maxItems 1 sorted
        [(othersKey addr, (items.lookup (othersKey addr)).getD ⟨0, none⟩)]
      = eliminateLoop (othersKey addr) maxItems 1 (sorted.take maxItems ++ sorted.drop maxItems)
          [(othersKey addr, (items.lookup (othersKey addr)).getD ⟨0, none⟩)] := by
        rw [take_append_drop]
    _ = eliminateLoop (othersKey addr) maxItems (1 + maxItems) (sorted.drop maxItems)
          ([(othersKey addr, (items.lookup (othersKey addr)).getD ⟨0, none⟩)] ++
            aside (othersKey addr) (sorted.take maxItems)) := by
        rw [eliminateLoop_append, eliminateLoop_kept _ _ (by omega) keeps, size]
    _ = _ := by
        rw [singleton_append, eliminateLoop_dropped _ _ _ (by omega)]

theorem foldl_plus (rows : Items) (item : Item) :
    (rows.foldl (fun item row => item.plus row.2) item).counters = item.counters + total rows := by
  induction rows generalizing item with
  | nil => exact (add_zero _).symm
  | cons row rows ih =>
    rw [foldl_cons, ih, total, total, map_cons, sum_cons, ← add_assoc]
    rfl

/-- The elimination keeps the traffic. -/
theorem total_eliminateItems (pairs : Pairs) (addr : Text) {items : Items}
    (distinct : (items.map Prod.fst).Nodup) (many : maxItems < items.length) :
    total (eliminateItems pairs addr items maxItems) = total items := by
  have cons : ∀ (row : Text × Item) rows, total (row :: rows) = row.2.counters + total rows :=
    fun row rows => sum_cons
  have appends : ∀ first second : Items, total (first ++ second) = total first + total second := by
    intro first second
    rw [total, map_append, sum_append]
    rfl
  have known : total (items.filter fun row => row.1 = othersKey addr) =
      ((items.lookup (othersKey addr)).getD ⟨0, none⟩).counters := by
    refine (sum_named distinct Item.counters (othersKey addr)).trans ?_
    cases items.lookup (othersKey addr) <;> rfl
  have splits : total items = total (items.filter fun row => row.1 = othersKey addr) +
      total (aside (othersKey addr) items) := by
    rw [← appends]
    have parts := (filter_append_perm (fun row : Text × Item => row.1 = othersKey addr) items).symm
    have same := (parts.map fun row => row.2.counters).sum_eq
    refine same.trans ?_
    simp only [total, aside, ne_eq, decide_not]
  have rest : total (aside (othersKey addr) items) =
      total (aside (othersKey addr) ((getSortedItems pairs items .uCount).take maxItems)) +
        total (aside (othersKey addr) ((getSortedItems pairs items .uCount).drop maxItems)) := by
    rw [← appends, aside, aside, aside, ← filter_append, take_append_drop]
    exact (((sorted_perm pairs items .uCount).symm.filter _).map _).sum_eq
  rw [eliminateItems_eq pairs addr distinct many, cons, foldl_plus, splits, known, rest]
  abel

end Elimination

section Merging

variable {db : Db} {records : List Record} {addr : Text} {limit : Nat} {pairs : Pairs}

/-- These are the items of the client with the largest upload counts. The item of the others is one
of them when its count is large. -/
structure Top (limit : Nat) (records : List Record) (addr : Text) (top : List Text) : Prop where
  distinct : top.Nodup
  known : ∀ key ∈ top, key ∈ itemKeys records addr
  length : top.length = min limit (itemKeys records addr).length
  largest : ∀ key ∈ top, ∀ other ∈ itemKeys records addr, other ∉ top →
    own records addr other .uCount ≤ own records addr key .uCount

/-- The items with the largest upload counts keep their own counters, and no others do. Nothing is
eliminated when the items of the client are not too many. -/
def Keeps (limit : Nat) (records : List Record) (addr : Text) (items : Items) : Prop :=
  (∃ top, Top limit records addr top ∧ ∀ key, key ≠ othersKey addr →
    (items.lookup key).map Item.counters = if key ∈ top then some (own records addr key) else none) ∧
  ((itemKeys records addr).length ≤ limit → ∀ key ∈ itemKeys records addr,
    (items.lookup key).map Item.counters = some (own records addr key))

/-- This is what the script does with the items of one client. -/
def limited (pairs : Pairs) (limit : Nat) (addr : Text) (items : Items) : Items :=
  if items.length > limit then eliminateItems pairs addr items limit else items

section

variable (holds : db.Holds records)
include holds

theorem Db.Holds.lookup_counters (addr key : Text) :
    ((db.items addr).lookup key).map Item.counters =
      if key ∈ itemKeys records addr then some (own records addr key) else none := by
  split
  case isTrue known =>
    have found := (mem_names_iff (holds.keys addr)).mp ((holds.mem_keys addr key).mpr known)
    obtain ⟨item, found⟩ := isSome_iff_exists.mp found
    rw [found, map_some, ← entry_counters ((holds.entries addr key).symm.trans found)]
  case isFalse unknown =>
    have missing : (db.items addr).lookup key = none := by
      rw [← not_isSome_iff_eq_none, ← mem_names_iff (holds.keys addr), holds.mem_keys]
      exact unknown
    rw [missing]
    rfl

/-- All the items are on top when they are few. -/
theorem Db.Holds.keeps_few (few : (db.items addr).length ≤ limit) :
    Keeps limit records addr (db.items addr) := by
  have size := holds.length addr
  refine ⟨⟨itemKeys records addr, ?_, fun key _ => holds.lookup_counters addr key⟩, ?_⟩
  · constructor
    case distinct => exact nodup_dedup _
    case known => exact fun key member => member
    case length => rw [Nat.min_eq_right (size ▸ few)]
    case largest => exact fun key _ other known missing => absurd known missing
  · intro _ key member
    rw [holds.lookup_counters, if_pos member]

theorem Db.Holds.keeps_many (many : limit < (db.items addr).length) :
    Keeps limit records addr (eliminateItems pairs addr (db.items addr) limit) := by
  have perm := sorted_perm pairs (db.items addr) .uCount
  have sorted := sorted_pairwise pairs (db.items addr) .uCount
  have distinct := holds.keys addr
  rw [eliminateItems_eq pairs addr distinct many]
  generalize getSortedItems pairs (db.items addr) .uCount = rows at perm sorted
  have separate : (rows.map Prod.fst).Nodup := (perm.map Prod.fst).nodup_iff.mpr distinct
  have names : ∀ key, key ∈ rows.map Prod.fst ↔ key ∈ itemKeys records addr := by
    intro key
    rw [(perm.map Prod.fst).mem_iff, holds.mem_keys]
  have counters : ∀ row ∈ rows, row.2.counters = own records addr row.1 :=
    fun row member => holds.counters (perm.mem_iff.mp member)
  have first : ∀ {row}, row ∈ rows.take limit → row ∈ rows := fun member => mem_of_mem_take member
  refine ⟨⟨(rows.take limit).map Prod.fst, ?_, ?_⟩, ?_⟩
  · constructor
    case distinct => exact ((take_sublist limit rows).map _).nodup separate
    case known =>
      intro key member
      obtain ⟨row, inside, rfl⟩ := List.mem_map.mp member
      exact (names row.1).mp (List.mem_map_of_mem (first inside))
    case length => rw [length_map, length_take, perm.length_eq, holds.length]
    case largest =>
      intro key member other known missing
      obtain ⟨row, inside, rfl⟩ := List.mem_map.mp member
      obtain ⟨last, there, rfl⟩ := List.mem_map.mp ((names other).mpr known)
      rw [← take_append_drop limit rows] at there sorted
      rcases mem_append.mp there with kept | dropped
      · exact absurd (List.mem_map_of_mem kept) missing
      · rw [← counters row (first inside), ← counters last (mem_of_mem_drop dropped)]
        exact (pairwise_append.mp sorted).2.2 row inside last dropped
  · intro key other
    have taken : ((aside (othersKey addr) (rows.take limit)).map Prod.fst).Nodup :=
      ((filter_sublist.trans (take_sublist limit rows)).map _).nodup separate
    rw [lookup_entry, if_neg other]
    split
    case isTrue member =>
      obtain ⟨row, inside, rfl⟩ := List.mem_map.mp member
      have found := (mem_iff_lookup taken).mp
        (mem_filter.mpr ⟨inside, decide_eq_true other⟩ : row ∈ aside _ _)
      rw [found, map_some, counters row (first inside)]
    case isFalse absent =>
      have missing : (aside (othersKey addr) (rows.take limit)).lookup key = none := by
        rw [← not_isSome_iff_eq_none, ← mem_names_iff taken]
        exact fun member => absent (map_subset _ (filter_subset_self _) member)
      rw [missing]
      rfl
  · intro few
    rw [holds.length] at many
    omega

theorem Db.Holds.limited (pairs : Pairs) (limit : Nat) (addr : Text) :
    Merge.total (limited pairs limit addr (db.items addr)) = sums (ofClient records addr) ∧
      (limited pairs limit addr (db.items addr)).length ≤ limit + 1 ∧
      Keeps limit records addr (limited pairs limit addr (db.items addr)) := by
  rw [Merge.limited]
  split
  case isTrue many =>
    refine ⟨(total_eliminateItems pairs addr (holds.keys addr) many).trans (holds.total addr), ?_,
      holds.keeps_many many⟩
    rw [eliminateItems_eq pairs addr (holds.keys addr) many, length_cons]
    have first := length_filter_le (fun row => decide (row.1 ≠ othersKey addr))
      ((getSortedItems pairs (db.items addr) .uCount).take limit)
    exact Nat.succ_le_succ (first.trans (length_take_le _ _))
  case isFalse few => exact ⟨holds.total addr, by omega, holds.keeps_few (by omega)⟩

end

/-- The script does this for each client. -/
theorem merge_texts (pairs : Pairs) (limit : Nat) (first second : List Line) :
    ∃ db, Db.Holds db ((first ++ second).map Line.record) ∧
      ∃ result, merge pairs limit (first.map Line.text) (second.map Line.text) = some result ∧
        ∀ addr, Db.items result addr = limited pairs limit addr (db.items addr) := by
  have holds := (empty_holds.read (first.map Line.record)).read (second.map Line.record)
  rw [nil_append, ← map_append] at holds
  generalize read : (second.map Line.record).foldl Db.add
    ((first.map Line.record).foldl Db.add []) = db at holds
  refine ⟨db, holds, db.map fun entry => (entry.1, limited pairs limit entry.1 entry.2), ?_, ?_⟩
  · rw [merge, readFile_texts, bind_eq_bind, bind_some, readFile_texts, bind_some, read]
    rfl
  · intro addr
    rw [Db.items, lookup_map, Db.items]
    cases db.lookup addr with
    | none => exact (if_neg (Nat.not_lt_zero limit)).symm
    | some items => rfl

/-- This is the traffic of a client in a file. -/
def traffic (lines : List Line) (addr : Text) : Counter → ℚ :=
  sums (ofClient (lines.map Line.record) addr)

theorem traffic_append (first second : List Line) (addr : Text) :
    traffic (first ++ second) addr = traffic first addr + traffic second addr := by
  rw [traffic, map_append, ofClient, filter_append, sums, map_append, sum_append]
  rfl

/-- The merged file has the traffic of both files for each client in at most one item more than the
limit. The items with the largest upload counts keep their counters, where the item of the others
takes part like any other item. -/
theorem merge_conserves (pairs : Pairs) (limit : Nat) (first second : List Line) :
    ∃ result, merge pairs limit (first.map Line.text) (second.map Line.text) = some result ∧
      ∀ addr, total (Db.items result addr) = traffic first addr + traffic second addr ∧
        (Db.items result addr).length ≤ limit + 1 ∧
        Keeps limit ((first ++ second).map Line.record) addr (Db.items result addr) ∧
        ∀ other : Pairs, ∃ swapped,
          merge other limit (second.map Line.text) (first.map Line.text) = some swapped ∧
            total (Db.items swapped addr) = total (Db.items result addr) := by
  obtain ⟨db, holds, result, merged, items⟩ := merge_texts pairs limit first second
  refine ⟨result, merged, fun addr => ?_⟩
  obtain ⟨totals, few, keeps⟩ := holds.limited pairs limit addr
  rw [items addr]
  have sums : total (limited pairs limit addr (db.items addr)) =
      traffic first addr + traffic second addr := totals.trans (traffic_append first second addr)
  refine ⟨sums, few, keeps, fun other => ?_⟩
  obtain ⟨db, holds, swapped, merged, items⟩ := merge_texts other limit second first
  refine ⟨swapped, merged, ?_⟩
  rw [items addr, sums, (holds.limited other limit addr).1]
  exact (traffic_append second first addr).trans (add_comm _ _)

/-- These are the numbers of a line that only has uploads. -/
def uploads (numeral : Numeral) : Counter → Numeral
  | .uCount => numeral
  | _ => ⟨['0'], [], List.all_eq_true.mp rfl, cons_ne_nil _ _⟩

def client : Text := ['c', 'l', 'i', 'e', 'n', 't']

def largeLine : Line where
  proto := ['T', 'C', 'P']
  src := client
  dst := ['f', 'i', 'r', 's', 't']
  port := ['8', '0']
  numbers := uploads ⟨['1', '0'], [], List.all_eq_true.mp rfl, cons_ne_nil _ _⟩
  resolvedName := none
  protoFits := ⟨cons_ne_nil _ _, List.all_eq_true.mp rfl⟩
  srcFits := ⟨cons_ne_nil _ _, List.all_eq_true.mp rfl⟩
  dstFits := ⟨cons_ne_nil _ _, List.all_eq_true.mp rfl⟩
  portFits := ⟨cons_ne_nil _ _, List.all_eq_true.mp rfl⟩
  nameFits := by simp

def smallLine : Line := { largeLine with
  dst := ['s', 'e', 'c', 'o', 'n', 'd']
  numbers := uploads ⟨['5'], [], List.all_eq_true.mp rfl, cons_ne_nil _ _⟩
  dstFits := ⟨cons_ne_nil _ _, List.all_eq_true.mp rfl⟩ }

/-- The line of the others has its place between the other two. -/
def othersLine : Line := { largeLine with
  proto := ['b', 'o', 't', 'h']
  dst := ['o', 't', 'h', 'e', 'r']
  port := ['a', 'l', 'l']
  numbers := uploads ⟨['7'], [], List.all_eq_true.mp rfl, cons_ne_nil _ _⟩
  protoFits := ⟨cons_ne_nil _ _, List.all_eq_true.mp rfl⟩
  dstFits := ⟨cons_ne_nil _ _, List.all_eq_true.mp rfl⟩
  portFits := ⟨cons_ne_nil _ _, List.all_eq_true.mp rfl⟩ }

def anyOrder : Pairs := ⟨id, fun _ => .refl _⟩

/-- Two items besides the one of the others are not more than the limit, but only one of them keeps
its counters. -/
theorem merge_not_aside :
    (itemKeys ([largeLine, smallLine, othersLine].map Line.record) client).filter
        (· ≠ othersKey client) = [largeLine.record.key, smallLine.record.key] ∧
      (merge anyOrder 2 [largeLine.text, smallLine.text] [othersLine.text]).map (fun result =>
        (Db.items result client).map Prod.fst) =
          some [othersKey client, largeLine.record.key] := by
  decide +kernel

end Merging

end Ucollect.Majordomo.Merge
