import Appraisal.Proofs.Questionnaire.Refusals
import Appraisal.Report.Csv
import Std.Data.String.ToNat
/-!
# Reading comma-separated values

A reader for comma-separated values as RFC 4180 has them, with a line feed behind every record (`Csv.read`), and one
for the fields of a row (`Csv.readRow`). Together they undo `Csv.render`, whatever the ids and titles, as long as no
layer of a trail is empty. Rows of a questionnaire have no empty layers: a layer that was left has questions, and all
of them were answered.
-/

namespace Appraisal.Csv

/-! ## Records -/

/-- Where a reader stands in a field; what it has read of it comes backwards. -/
inductive Place where
  | plain (done : List Char)
  | quoted (done : List Char)
  /-- Behind a quote in a quoted field, which ends the field or is the first of two. -/
  | closed (done : List Char)
deriving DecidableEq, Repr

namespace Place

/-- The start of a field. -/
def start : Place :=
  plain []

def text : Place → String
  | plain done | quoted done | closed done => String.ofList done.reverse

/-- Whether a field may end here. -/
def mayEnd : Place → Bool
  | quoted _ => false
  | _ => true

end Place

/-- What the next character does. -/
inductive Move where
  | goOn (place : Place)
  | endField
  | endRecord
  | refuse
deriving DecidableEq, Repr

/-- Between quotes every character but a quote is text. Outside of them a comma ends the field and a line feed the
record; quotes stand only around a whole field. -/
def move : Place → Char → Move
  | .quoted done, c => if c = '"' then .goOn (.closed done) else .goOn (.quoted (c :: done))
  | .closed done, c =>
    if c = '"' then .goOn (.quoted (c :: done))
    else if c = ',' then .endField
    else if c = '\n' then .endRecord
    else .refuse
  | .plain done, c =>
    if c = ',' then .endField
    else if c = '\n' then .endRecord
    else if c = '"' then if done.isEmpty then .goOn (.quoted []) else .refuse
    else if c = '\r' then .refuse
    else .goOn (.plain (c :: done))

/-- Reads on behind the first `fields` of a record. The line feed behind the last record may be missing. -/
def readFrom (fields : List String) (place : Place) : List Char → Option (List (List String))
  | [] =>
    if fields.isEmpty && place = .start then some []
    else if place.mayEnd then some [fields ++ [place.text]]
    else none
  | c :: rest =>
    match move place c with
    | .goOn next => readFrom fields next rest
    | .endField => readFrom (fields ++ [place.text]) .start rest
    | .endRecord => (readFrom [] .start rest).map ((fields ++ [place.text]) :: ·)
    | .refuse => none

/-- The records of a text. -/
def read (text : String) : Option (List (List String)) :=
  readFrom [] .start text.toList

/-! ## Fields -/

/-- The pieces of a text between the places where `mark` stands. Of the last such place `skip` characters are still to
come, and `done` is the piece at hand, backwards. -/
def splitFrom (mark : List Char) (skip : Nat) (done : List Char) : List Char → List (List Char)
  | [] => [done.reverse]
  | c :: rest =>
    match skip with
    | n + 1 => splitFrom mark n done rest
    | 0 =>
      if mark.isPrefixOf (c :: rest) then done.reverse :: splitFrom mark (mark.length - 1) [] rest
      else splitFrom mark 0 (c :: done) rest

def split (mark : String) (text : List Char) : List (List Char) :=
  splitFrom mark.toList 0 [] text

def readLayer (text : List Char) : Option (List Answer) :=
  (split "," text).mapM fun word => Answer.ofWord? (String.ofList word)

def readTrail (text : String) : Option (List (List Answer)) :=
  if text.isEmpty then some [] else (split " | " text.toList).mapM readLayer

def readMain (text : String) : Option (Option Answer) :=
  if text.isEmpty then some none else (Answer.ofWord? text).map some

/-- The row that the fields of a record stand for. -/
def readRow : List String → Option Row
  | [index, id, title, main, trail, standing] => do
    return ⟨← index.toNat?, id, title, ← Standing.ofWord? standing, ← readMain main, ← readTrail trail⟩
  | _ => none

def headerFields : List String :=
  ["index", "id", "title", "main_answer", "trail", "verdict"]

/-! ## Records are read back -/

section Fields
variable (fields : List String) (rest : List Char)

theorem read_plain {cs : List Char} (h : ∀ c ∈ cs, isSpecial c = false) :
    ∀ done, readFrom fields (.plain done) (cs ++ rest) = readFrom fields (.plain (cs.reverse ++ done)) rest := by
  induction cs with
  | nil => exact fun _ => rfl
  | cons c cs ih =>
    intro done
    have hc := h c List.mem_cons_self
    simp only [isSpecial, Bool.or_eq_false_iff, decide_eq_false_iff_not] at hc
    obtain ⟨⟨⟨hcomma, hquote⟩, hline⟩, hreturn⟩ := hc
    have hmove : move (.plain done) c = .goOn (.plain (c :: done)) := by
      simp [move, hcomma, hquote, hline, hreturn]
    rw [List.cons_append, readFrom, hmove]
    simpa using ih (fun d hd => h d (List.mem_cons_of_mem _ hd)) (c :: done)

theorem read_quoted (cs : List Char) :
    ∀ done, readFrom fields (.quoted done) (cs.flatMap quoteChar ++ '"' :: rest) =
      readFrom fields (.closed (cs.reverse ++ done)) rest := by
  induction cs with
  | nil => exact fun _ => rfl
  | cons c cs ih =>
    intro done
    have hc : readFrom fields (.quoted done) (quoteChar c ++ (cs.flatMap quoteChar ++ '"' :: rest)) =
        readFrom fields (.quoted (c :: done)) (cs.flatMap quoteChar ++ '"' :: rest) := by
      by_cases hq : c = '"'
      · -- Two quotes: the first one closes the field, the second one opens it again.
        subst hq
        rfl
      · have hmove : move (.quoted done) c = .goOn (.quoted (c :: done)) := by simp [move, hq]
        rw [quoteChar, if_neg hq, List.singleton_append, readFrom, hmove]
    rw [List.flatMap_cons, List.append_assoc, hc, ih]
    simp

/-- A written field is read as a whole, and nothing is read beyond it. -/
theorem read_field (s : String) : ∃ place : Place, place.mayEnd = true ∧ place.text = s ∧
    readFrom fields .start ((field s).toList ++ rest) = readFrom fields place rest := by
  -- A field is quoted exactly when a character in it would not be read as text outside of quotes.
  by_cases h : s.toList.any isSpecial = true
  · refine ⟨.closed s.toList.reverse, rfl, by simp [Place.text], ?_⟩
    have hopen : move .start '"' = .goOn (.quoted []) := rfl
    rw [field, if_pos h, String.toList_ofList, List.cons_append, List.cons_append, readFrom, hopen]
    simpa using read_quoted fields rest s.toList []
  · refine ⟨.plain s.toList.reverse, rfl, by simp [Place.text], ?_⟩
    have hplain : ∀ c ∈ s.toList, isSpecial c = false := by simpa using h
    rw [field, if_neg h]
    simpa [Place.start] using read_plain fields rest hplain []

end Fields

theorem move_comma {place : Place} (h : place.mayEnd = true) : move place ',' = .endField := by
  cases place with
  | plain done => rfl
  | quoted done => cases h
  | closed done => rfl

theorem move_line {place : Place} (h : place.mayEnd = true) : move place '\n' = .endRecord := by
  cases place with
  | plain done => rfl
  | quoted done => cases h
  | closed done => rfl

/-- A written record is read as a whole. -/
theorem read_record (rest : List Char) (more : List String) :
    ∀ fields s, readFrom fields .start ((record (s :: more)).toList ++ rest) =
      (readFrom [] .start rest).map ((fields ++ s :: more) :: ·) := by
  induction more with
  | nil =>
    intro fields s
    obtain ⟨place, hend, rfl, hread⟩ := read_field fields ('\n' :: rest) s
    have htext : (record [place.text]).toList ++ rest = (field place.text).toList ++ '\n' :: rest := by
      simp [record]
    rw [htext, hread, readFrom, move_line hend]
  | cons t more ih =>
    intro fields s
    obtain ⟨place, hend, rfl, hread⟩ := read_field fields (',' :: (record (t :: more)).toList ++ rest) s
    have htext : (record (place.text :: t :: more)).toList ++ rest =
        (field place.text).toList ++ (',' :: (record (t :: more)).toList ++ rest) := by
      simp [record]
    rw [htext, hread, List.cons_append, readFrom, move_comma hend]
    simpa using ih (fields ++ [place.text]) t

theorem read_records (rows : List Row) :
    readFrom [] .start (rows.flatMap fun r => (record (rowFields r)).toList) = some (rows.map rowFields) := by
  induction rows with
  | nil => rfl
  | cons r rows ih =>
    rw [List.flatMap_cons]
    exact (read_record _ _ [] _).trans (by rw [ih]; rfl)

/-- The header and the fields of each row are read as they have been written. -/
theorem read_render (rows : List Row) : read (render rows) = some (headerFields :: rows.map rowFields) := by
  have hheader : header ++ "\n" = record headerFields := by decide
  have htext : (render rows).toList =
      (record headerFields).toList ++ rows.flatMap fun r => (record (rowFields r)).toList := by
    rw [render, hheader]
    simp [List.flatMap_map]
  rw [read, htext]
  exact (read_record _ _ [] _).trans (by rw [read_records]; rfl)

/-! ## Rows are read back -/

section Split
variable {x : Char} {tail : List Char}

theorem split_skip (mark rest : List Char) (xs : List Char) :
    ∀ done, splitFrom mark xs.length done (xs ++ rest) = splitFrom mark 0 done rest := by
  induction xs with
  | nil => exact fun _ => rfl
  | cons x xs ih => exact fun done => ih done

/-- A piece without the first character of the mark goes on up to the next mark. -/
theorem split_piece {piece : List Char} (h : x ∉ piece) (rest : List Char) :
    ∀ done, splitFrom (x :: tail) 0 done (piece ++ (x :: tail ++ rest)) =
      (done.reverse ++ piece) :: splitFrom (x :: tail) 0 [] rest := by
  induction piece with
  | nil =>
    intro done
    have hmark : (x :: tail).isPrefixOf (x :: (tail ++ rest)) = true := by simp
    rw [List.nil_append, List.cons_append, splitFrom, if_pos hmark, List.append_nil]
    exact congrArg _ (split_skip (x :: tail) rest tail [])
  | cons c piece ih =>
    intro done
    simp only [List.mem_cons, not_or] at h
    have hmark : (x :: tail).isPrefixOf (c :: (piece ++ (x :: tail ++ rest))) = false := by
      simp [List.isPrefixOf, h.1]
    rw [List.cons_append, splitFrom, hmark]
    simpa using ih h.2 (c :: done)

theorem split_last {piece : List Char} (h : x ∉ piece) :
    ∀ done, splitFrom (x :: tail) 0 done piece = [done.reverse ++ piece] := by
  induction piece with
  | nil => exact fun done => by simp [splitFrom]
  | cons c piece ih =>
    intro done
    simp only [List.mem_cons, not_or] at h
    have hmark : (x :: tail).isPrefixOf (c :: piece) = false := by
      simp [List.isPrefixOf, h.1]
    rw [splitFrom, hmark]
    simpa using ih h.2 (c :: done)

/-- Splitting gives back the pieces that were put together. -/
theorem split_intercalate {pieces : List (List Char)} (hne : pieces ≠ []) (h : ∀ piece ∈ pieces, x ∉ piece) :
    splitFrom (x :: tail) 0 [] ((x :: tail).intercalate pieces) = pieces := by
  induction pieces with
  | nil => exact absurd rfl hne
  | cons piece pieces ih =>
    have hpiece : x ∉ piece := h piece List.mem_cons_self
    cases pieces with
    | nil => simpa using split_last hpiece []
    | cons next pieces =>
      have hrest := ih (by simp) fun p hp => h p (List.mem_cons_of_mem _ hp)
      rw [List.intercalate_cons_cons, List.append_assoc, split_piece hpiece, hrest]
      rfl

end Split

theorem intercalate_ne_nil {mark : List Char} {pieces : List (List Char)} (hne : pieces ≠ [])
    (h : ∀ piece ∈ pieces, piece ≠ []) : mark.intercalate pieces ≠ [] := by
  cases pieces with
  | nil => exact absurd rfl hne
  | cons piece pieces =>
    have hpiece := h piece List.mem_cons_self
    cases pieces <;> simp [hpiece]

/-- What undoes a function on each of some values undoes its mapping over them. -/
theorem mapM_map {α β : Type} {f : α → β} {g : β → Option α} {xs : List α}
    (h : ∀ x ∈ xs, g (f x) = some x) : (xs.map f).mapM g = some xs := by
  induction xs with
  | nil => rfl
  | cons x xs ih =>
    simp [h x List.mem_cons_self, ih fun y hy => h y (List.mem_cons_of_mem _ hy)]

theorem layerText_toList (layer : List Answer) :
    (layerText layer).toList = [','].intercalate (layer.map fun a => a.word.toList) := by
  simp [layerText, Function.comp_def]

theorem word_plain (a : Answer) : ',' ∉ a.word.toList ∧ ' ' ∉ a.word.toList ∧ a.word.toList ≠ [] := by
  cases a <;> decide

theorem layerText_ne_nil {layer : List Answer} (h : layer ≠ []) : (layerText layer).toList ≠ [] := by
  rw [layerText_toList]
  refine intercalate_ne_nil (by simpa using h) fun piece hp => ?_
  obtain ⟨a, -, rfl⟩ := List.mem_map.1 hp
  exact (word_plain a).2.2

/-- Layers are written without blanks, so a mark of layers is none inside a layer. -/
theorem layerText_plain (layer : List Answer) : ' ' ∉ (layerText layer).toList := by
  rw [layerText_toList]
  induction layer with
  | nil => simp
  | cons a layer ih =>
    have ha := (word_plain a).2.1
    cases layer with
    | nil => simpa using ha
    | cons b layer =>
      rw [List.map_cons, List.map_cons, List.intercalate_cons_cons]
      rw [List.map_cons] at ih
      simp only [List.mem_append, List.mem_singleton, not_or]
      exact ⟨⟨ha, by decide⟩, ih⟩

theorem readLayer_layerText {layer : List Answer} (h : layer ≠ []) :
    readLayer (layerText layer).toList = some layer := by
  have hsplit : split "," (layerText layer).toList = layer.map fun a => a.word.toList := by
    rw [layerText_toList]
    refine split_intercalate (by simpa using h) fun piece hp => ?_
    obtain ⟨a, -, rfl⟩ := List.mem_map.1 hp
    exact (word_plain a).1
  rw [readLayer, hsplit]
  exact mapM_map fun a _ => by rw [String.ofList_toList, Answer.ofWord?_word]

theorem trailText_toList (trail : List (List Answer)) :
    (trailText trail).toList = [' ', '|', ' '].intercalate (trail.map fun layer => (layerText layer).toList) := by
  simp [trailText, Function.comp_def]

/-- A trail without empty layers is read back from its text. -/
theorem readTrail_trailText {trail : List (List Answer)} (h : ∀ layer ∈ trail, layer ≠ []) :
    readTrail (trailText trail) = some trail := by
  by_cases hnil : trail = []
  · subst hnil
    decide
  · have hpieces : trail.map (fun layer => (layerText layer).toList) ≠ [] := by simpa using hnil
    have hne : (trailText trail).isEmpty = false := by
      rw [Bool.eq_false_iff, ne_eq, String.isEmpty_iff, ← String.toList_eq_nil_iff, trailText_toList]
      refine intercalate_ne_nil hpieces fun piece hp => ?_
      obtain ⟨layer, hl, rfl⟩ := List.mem_map.1 hp
      exact layerText_ne_nil (h layer hl)
    have hsplit : split " | " (trailText trail).toList = trail.map fun layer => (layerText layer).toList := by
      rw [trailText_toList]
      refine split_intercalate hpieces fun piece hp => ?_
      obtain ⟨layer, -, rfl⟩ := List.mem_map.1 hp
      exact layerText_plain layer
    rw [readTrail, hne, hsplit]
    exact mapM_map fun layer hl => readLayer_layerText (h layer hl)

theorem readMain_word (main : Option Answer) : readMain ((main.map Answer.word).getD "") = some main := by
  rcases main with _ | a
  · rfl
  · cases a <;> rfl

/-- The fields of a row tell what the row is. -/
theorem readRow_rowFields {r : Row} (h : ∀ layer ∈ r.trail, layer ≠ []) : readRow (rowFields r) = some r := by
  simp [readRow, rowFields, Standing.ofWord?_word, readMain_word, readTrail_trailText h]

/-! ## Rows of questionnaires -/

/-- A layer that leads on has questions, and answers to all of them. -/
theorem leads_ne_nil {root l : Layer} {done : List (List Answer)} (h : root.Leads done l) :
    ∀ answers ∈ done, answers ≠ [] := by
  induction h with
  | here l => simp
  | on hs _ _ ih =>
    intro answers hmem
    rcases List.mem_cons.1 hmem with rfl | hmem
    · -- Without an answer the layer would have no questions, and then it does not lead on.
      rintro rfl
      exact hs.leads_on.1 hs.of_nil.1
    · exact ih answers hmem

theorem full_ne_nil {item : Item} {index : Nat} {s : Session} (h : s.Agrees item index) :
    ∀ layer ∈ s.trail.full, layer ≠ [] := by
  cases h with
  | unstarted => exact fun _ h => by cases h
  | @started a done answers l state hl _ =>
    intro layer hmem
    -- The active layer is shown only once it has an answer.
    by_cases hnil : answers = []
    · rw [hnil, Trail.on_full_nil] at hmem
      exact leads_ne_nil hl layer hmem
    · rw [Trail.on_full a done hnil, List.mem_append, List.mem_singleton] at hmem
      rcases hmem with hmem | rfl
      · exact leads_ne_nil hl layer hmem
      · exact hnil

/-- No row of a questionnaire shows an empty layer. -/
theorem results_ne_nil {q : Questionnaire} (h : q.Sound) {r : Row} (hr : r ∈ q.results) :
    ∀ layer ∈ r.trail, layer ≠ [] := by
  obtain ⟨i, item, s, hi, hs, rfl⟩ := h.mem_results hr
  exact full_ne_nil (h.agrees hi hs)

/-! ## All together -/

/-- What is written about rows is read back: first the header, then a record of six fields for each row, from which the
row is known again, as long as no layer of its trail is empty. And in no run does a questionnaire come to a row with an
empty layer. -/
theorem rows_read_back :
    (∀ rows : List Row, (∀ r ∈ rows, ∀ layer ∈ r.trail, layer ≠ []) →
      ∃ records, read (render rows) = some (headerFields :: records) ∧ records.length = rows.length ∧
        (∀ fields ∈ records, fields.length = 6) ∧ records.map readRow = rows.map some) ∧
    ∀ c es, ∀ r ∈ ((Questionnaire.new c).run es).results, ∀ layer ∈ r.trail, layer ≠ [] := by
  constructor
  · intro rows h
    refine ⟨rows.map rowFields, read_render rows, List.length_map _, fun fields hf => ?_, ?_⟩
    · obtain ⟨r, -, rfl⟩ := List.mem_map.1 hf
      rfl
    · rw [List.map_map]
      exact List.map_congr_left fun r hr => readRow_rowFields (h r hr)
  · intro c es r hr
    exact results_ne_nil ((Questionnaire.sound_new c).run es) hr

/-- Rows with marks, quotes and line ends in their texts, and one without any text. -/
def awkwardRows : List Row :=
  [⟨0, "a,b", "Is \"it\" dry,\r\nand \n warm?", .decided .fail, some .yes, [[.yes, .no], [.no]]⟩,
    ⟨12, "", "", .pending, none, []⟩, ⟨13, "\"", " | ", .pending, some .yes, []⟩]

/-- The row of a roof that has just come to its second layer. -/
def roofRow : Row :=
  ⟨0, "roof", "Is there a roof?", .pending, some .yes, [[.no]]⟩

theorem awkwardRows_read_back :
    (∀ r ∈ awkwardRows, ∀ layer ∈ r.trail, layer ≠ []) ∧
      (∃ records, read (render awkwardRows) = some (headerFields :: records) ∧
        records.map readRow = awkwardRows.map some) ∧
      roofRow ∈ ((Questionnaire.new Questionnaire.houseCatalog).run [.main 0 .yes, .sub 0 0 0 .no]).results ∧
      ∀ layer ∈ roofRow.trail, layer ≠ [] := by
  have h : ∀ r ∈ awkwardRows, ∀ layer ∈ r.trail, layer ≠ [] := by decide
  have hroof : roofRow ∈
      ((Questionnaire.new Questionnaire.houseCatalog).run [.main 0 .yes, .sub 0 0 0 .no]).results := by
    decide
  obtain ⟨records, hread, -, -, hrows⟩ := rows_read_back.1 awkwardRows h
  exact ⟨h, ⟨records, hread, hrows⟩, hroof, rows_read_back.2 _ _ roofRow hroof⟩

/-- A trail with an empty layer would be written like one without layers. -/
example : trailText [[]] = trailText [] := by
  decide

end Appraisal.Csv
