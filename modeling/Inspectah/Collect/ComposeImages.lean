import Inspectah.Collect.CronCalendar
import Inspectah.Core.HostFiles

/-!
The images of a compose file. The reader goes by lines and their indentation; a document in block
style is a tree of entries, and its services with an image are what the reader is for.
-/
namespace Inspectah

def COMPOSE_SUB_KEYS : List (List Char) :=
  ["ports", "volumes", "environment", "env_file", "networks", "depends_on", "build", "command",
    "entrypoint", "restart", "deploy", "labels", "healthcheck", "logging", "secrets", "configs",
    "expose", "extra_hosts"].map String.toList

structure ComposeParseResult where
  services : List ComposeService
  hadAnomalies : Bool
  deriving DecidableEq

namespace Compose

/-- What the reader knows between two lines. -/
structure Scan where
  services : List ComposeService := []
  hadAnomalies : Bool := false
  currentService : List Char := []
  serviceIndent : Int := -1
  inServices : Bool := false

/-- `as i32` of a length. -/
def asI32 (n : Nat) : Int :=
  if n % 2 ^ 32 < 2 ^ 31 then (n % 2 ^ 32 : Nat) else (n % 2 ^ 32 : Nat) - 2 ^ 32

/-- `as usize` of an `i32`. -/
def asUsize (i : Int) : Nat := (i % 2 ^ 64).toNat

def isIndent (c : Char) : Bool := c == ' ' || c == '\t'

def isQuoteMark (c : Char) : Bool := c == '\'' || c == '"'

def trimQuoteMarks (cs : List Char) : List Char :=
  ((cs.dropWhile isQuoteMark).reverse.dropWhile isQuoteMark).reverse

def trimEndColons (cs : List Char) : List Char := (cs.reverse.dropWhile (· == ':')).reverse

def IMAGE : List Char := "image:".toList

/-- `^image:\s*(.+)`; what it takes loses its blanks, then its quote marks. -/
def imageOf (trimmed : List Char) : Option (List Char) :=
  if IMAGE.isPrefixOf trimmed then
    match trimmed.drop IMAGE.length with
    | [] => none
    | c :: rest => some (trimQuoteMarks (Text.trimChars (c :: rest)))
  else none

def opensServices (trimmed : List Char) : Bool := "services:".toList.isPrefixOf trimmed

def isSkipped (trimmed : List Char) : Bool := trimmed.isEmpty || trimmed.head? == some '#'

/-- A line below `services:`, once the indentation of the services is known. -/
def scanEntry (s : Scan) (indent : Nat) (trimmed : List Char) : Scan :=
  if 0 < s.serviceIndent ∧ indent = asUsize s.serviceIndent ∧ trimmed.getLast? = some ':' then
    let keyName := trimEndColons trimmed
    if COMPOSE_SUB_KEYS.contains (toLowercase keyName) then { s with hadAnomalies := true }
    else { s with currentService := keyName }
  else if s.currentService ≠ [] ∧ asUsize s.serviceIndent < indent then
    match imageOf trimmed with
    | some img =>
      { s with services := s.services ++ [⟨String.ofList s.currentService, String.ofList img⟩] }
    | none => s
  else s

def scanTrimmed (s : Scan) (indent : Nat) (trimmed : List Char) : Scan :=
  if isSkipped trimmed then s
  else if opensServices trimmed then
    { s with inServices := true, serviceIndent := -1, currentService := [] }
  else if !s.inServices then s
  else if indent = 0 then
    { s with inServices := false, currentService := [], serviceIndent := -1 }
  else if s.serviceIndent < 0 then
    scanEntry { s with serviceIndent := asI32 indent } indent trimmed
  else scanEntry s indent trimmed

def scanLine (s : Scan) (line : List Char) : Scan :=
  scanTrimmed s (line.takeWhile isIndent).length (Text.trimChars line)

def extractComposeImages (content : String) : ComposeParseResult :=
  let s := (Text.lines content).foldl (fun s line => scanLine s line.toList) {}
  { services := s.services, hadAnomalies := s.hadAnomalies }

def edges (cs : List Char) : List Char := cs.head?.toList ++ cs.getLast?.toList

theorem mem_edges {cs : List Char} {c : Char} :
    c ∈ edges cs ↔ cs.head? = some c ∨ cs.getLast? = some c := by
  rw [edges, List.mem_append, Option.mem_toList, Option.mem_toList]

/-- The text of a line, without the blanks around it. -/
structure Words where
  chars : List Char
  ne : chars ≠ []
  trimmed : ∀ c ∈ edges chars, Text.isWhitespace c = false
  one_line : '\n' ∉ chars

structure Comment extends Words where
  opens : chars.head? = some '#'

structure Scalar where
  mark : Option Char
  text : List Char
  one_line : '\n' ∉ text
  plain : mark = none → text ≠ [] ∧ (∀ c ∈ edges text, Text.isWhitespace c = false) ∧
    (∀ c ∈ text.take 1, c ≠ '#' ∧ isQuoteMark c = false) ∧ text.getLast? ≠ some ':' ∧
    Text.containsChars " #".toList text = false ∧ Text.containsChars ": ".toList text = false
  quoted : ∀ q ∈ mark, isQuoteMark q = true ∧ q ∉ text ∧ '\\' ∉ text

theorem quoteMark_plain {c : Char} (h : isQuoteMark c = true) :
    Text.isWhitespace c = false ∧ c ≠ '\n' := by
  rcases Bool.or_eq_true_iff.mp h with single | double
  · rw [eq_of_beq single]
    exact ⟨rfl, by decide⟩
  · rw [eq_of_beq double]
    exact ⟨rfl, by decide⟩

def Scalar.words (v : Scalar) : Words :=
  match marked : v.mark with
  | none => ⟨v.text, (v.plain marked).1, (v.plain marked).2.1, v.one_line⟩
  | some q =>
    { chars := q :: (v.text ++ [q])
      ne := List.cons_ne_nil _ _
      trimmed := by
        rw [edges, ← List.cons_append, List.getLast?_concat]
        simp [(quoteMark_plain (v.quoted q marked).1).1]
      one_line := by
        have apart := (quoteMark_plain (v.quoted q marked).1).2.symm
        simp [apart, v.one_line] }

/-- Two texts on one line, and the blanks between them. -/
def Words.followedBy (w : Words) (gap : Nat) (more : Words) : Words where
  chars := w.chars ++ (List.replicate gap ' ' ++ more.chars)
  ne := by simp [w.ne]
  trimmed := by
    intro c mem
    rcases mem_edges.mp mem with first | last
    · rw [List.head?_append_of_ne_nil _ w.ne] at first
      exact w.trimmed c (mem_edges.mpr (.inl first))
    · rw [← List.append_assoc, List.getLast?_append_of_ne_nil _ more.ne] at last
      exact more.trimmed c (mem_edges.mpr (.inr last))
  one_line := by simp [w.one_line, more.one_line]

def colon : Words := ⟨[':'], by decide, by decide, by decide⟩

structure Entry where
  key : Scalar
  value : Option (Nat × Scalar) := none
  note : Option (Nat × Comment) := none

def Entry.words (e : Entry) : Words :=
  let opened := e.key.words.followedBy 0 colon
  let valued := e.value.elim opened fun v => opened.followedBy (v.1 + 1) v.2.words
  e.note.elim valued fun c => valued.followedBy (c.1 + 1) c.2.toWords

/-- A line of its own: a comment, or blanks. -/
structure Remark where
  pad : Nat
  text : Option Comment

inductive Node where
  | remark (r : Remark)
  | entry (e : Entry) (below : List Node)
  /-- A line of any other form: an entry of a sequence, a collection in flow style, a part of a
      longer text. -/
  | words (w : Words) (opens : w.chars.head? ≠ some '#') (below : List Node)

structure Service where
  before : List Remark := []
  key : Scalar
  note : Option (Nat × Comment) := none
  below : List Node

structure Document where
  step : Nat
  indented : 0 < step
  before : List Node := []
  header : Scalar
  named : header.text = "services".toList
  note : Option (Nat × Comment) := none
  services : List Service
  after : List Node := []

structure Row where
  pad : Nat
  words : Option Words

def Row.body (row : Row) : List Char := row.words.elim [] (·.chars)

def Row.line (row : Row) : List Char := List.replicate row.pad ' ' ++ row.body

def Remark.row (r : Remark) : Row := ⟨r.pad, r.text.map (·.toWords)⟩

mutual

def Node.rows (step depth : Nat) : Node → List Row
  | .remark r => [r.row]
  | .entry e below => ⟨step * depth, some e.words⟩ :: rowsOf step (depth + 1) below
  | .words w _ below => ⟨step * depth, some w⟩ :: rowsOf step (depth + 1) below

def rowsOf (step depth : Nat) : List Node → List Row
  | [] => []
  | node :: nodes => node.rows step depth ++ rowsOf step depth nodes

end

def Service.rows (step : Nat) (s : Service) : List Row :=
  s.before.map Remark.row ++
    ⟨step, some (Entry.words { key := s.key, note := s.note })⟩ :: rowsOf step 2 s.below

def Document.rows (doc : Document) : List Row :=
  rowsOf doc.step 0 doc.before ++
    ⟨0, some (Entry.words { key := doc.header, note := doc.note })⟩ ::
      (doc.services.flatMap (Service.rows doc.step) ++ rowsOf doc.step 0 doc.after)

def Document.text (doc : Document) : String :=
  String.ofList (joinLines (doc.rows.map Row.line) [])

def Node.image : Node → Option Scalar
  | .entry { key, value := some (_, value), .. } _ =>
    if key.text = "image".toList then some value else none
  | _ => none

def Service.images (s : Service) : List ComposeService :=
  (s.below.filterMap Node.image).map fun value =>
    ⟨String.ofList s.key.text, String.ofList value.text⟩

/-- The reader gives the services with an image, in their order, and nothing to report. -/
def Document.IsRead (doc : Document) : Prop :=
  extractComposeImages doc.text =
    { services := doc.services.flatMap Service.images, hadAnomalies := false }

/-- Below a service the image is plainly written, and no other line looks like one. -/
def Node.IsClear (step : Nat) (node : Node) : Prop :=
  match node with
  | .entry { key, value := some (_, value), note } below =>
    if key.text = "image".toList then
      key.mark = none ∧ note = none ∧ (∀ row ∈ rowsOf step 3 below, imageOf row.body = none) ∧
        ∀ c ∈ edges value.text, isQuoteMark c = false
    else ∀ row ∈ node.rows step 2, imageOf row.body = none
  | _ => ∀ row ∈ node.rows step 2, imageOf row.body = none

structure Service.IsClear (step : Nat) (s : Service) : Prop where
  plain : s.key.mark = none
  alone : s.note = none
  own_name : toLowercase s.key.text ∉ COMPOSE_SUB_KEYS
  below : ∀ node ∈ s.below, node.IsClear step

structure Document.IsClear (doc : Document) : Prop where
  narrow : doc.step < 2 ^ 31
  plain_header : doc.header.mark = none
  one_header : ∀ row ∈ rowsOf doc.step 0 doc.before ++
    (doc.services.flatMap (Service.rows doc.step) ++ rowsOf doc.step 0 doc.after),
      opensServices row.body = false
  services : ∀ s ∈ doc.services, s.IsClear doc.step

def scanRow (s : Scan) (row : Row) : Scan := scanTrimmed s row.pad row.body

theorem Row.ends (row : Row) (c : Char)
    (h : row.body.head? = some c ∨ row.body.getLast? = some c) : Text.isWhitespace c = false := by
  obtain ⟨pad, words⟩ := row
  cases words with
  | none => rcases h with h | h <;> cases h
  | some w => exact w.trimmed c (mem_edges.mpr h)

theorem scanLine_row (s : Scan) (row : Row) : scanLine s row.line = scanRow s row := by
  have blank : ∀ c ∈ List.replicate row.pad ' ', c = ' ' := fun c => List.eq_of_mem_replicate
  have first : row.body.takeWhile isIndent = [] := by
    cases body : row.body with
    | nil => rfl
    | cons c rest =>
      have plain := row.ends c (.inl (by rw [body]; rfl))
      rw [List.takeWhile_cons_of_neg]
      intro h
      rcases Bool.or_eq_true_iff.mp h with h | h <;> rw [eq_of_beq h] at plain <;> cases plain
  rw [scanLine, Row.line, trimChars_after (fun c mem => by rw [blank c mem]; rfl) row.ends,
    List.takeWhile_append_of_pos (fun c mem => by rw [blank c mem]; rfl), first, List.append_nil,
    List.length_replicate, scanRow]

theorem Document.text_lines (doc : Document) :
    Text.lines doc.text = doc.rows.map fun row => String.ofList row.line := by
  have one_line : ∀ row : Row, '\n' ∉ row.line := by
    rintro ⟨pad, _ | w⟩
    · simp [Row.line, Row.body]
    · simp [Row.line, Row.body, w.one_line]
  have whole : ∀ row : Row, Text.dropCarriageReturn row.line = row.line := by
    refine fun row => dropCarriageReturn_of_last fun last => ?_
    rw [Row.line, List.getLast?_append] at last
    cases end_of_body : row.body.getLast? with
    | none =>
      rw [end_of_body, Option.none_or] at last
      cases List.eq_of_mem_replicate (List.mem_of_getLast? last)
    | some c =>
      rw [end_of_body, Option.some_or] at last
      cases (row.ends '\r' (.inr (end_of_body.trans last)))
  rw [Document.text, lines_joinLines _ (by simp)]
  · simp [Function.comp_def, whole]
  · intro line mem
    obtain ⟨row, -, rfl⟩ := List.mem_map.mp mem
    exact one_line row

theorem Document.extracted (doc : Document) : extractComposeImages doc.text =
    { services := (doc.rows.foldl scanRow {}).services
      hadAnomalies := (doc.rows.foldl scanRow {}).hadAnomalies } := by
  have folded : ∀ (rows : List Row) (s : Scan), (rows.map fun row => String.ofList row.line).foldl
      (fun s line => scanLine s line.toList) s = rows.foldl scanRow s := by
    intro rows s
    simp only [List.foldl_map, String.toList_ofList, scanLine_row]
  rw [extractComposeImages, doc.text_lines, folded]

theorem scanRow_skipped {row : Row} (skipped : isSkipped row.body = true) (s : Scan) :
    scanRow s row = s := by
  rw [scanRow, scanTrimmed, if_pos skipped]

theorem Remark.skipped (r : Remark) : isSkipped r.row.body = true := by
  obtain ⟨pad, _ | text⟩ := r
  · rfl
  · exact Bool.or_eq_true_iff.mpr (.inr (beq_iff_eq.mpr text.opens))

theorem scan_remarks (rs : List Remark) (s : Scan) : (rs.map Remark.row).foldl scanRow s = s := by
  induction rs with
  | nil => rfl
  | cons r rs ih => rw [List.map_cons, List.foldl_cons, scanRow_skipped r.skipped, ih]

theorem Scalar.opens (v : Scalar) : v.words.chars.head? ≠ some '#' := by
  unfold Scalar.words
  split
  · next marked =>
    intro first
    have opening : '#' ∈ v.text.take 1 := by
      obtain ⟨rest, whole⟩ : ∃ rest, v.text = '#' :: rest := List.head?_eq_some_iff.mp first
      rw [whole]
      exact List.mem_cons_self
    exact ((v.plain marked).2.2.1 '#' opening).1 rfl
  · next q marked =>
    intro first
    have mark := (v.quoted q marked).1
    rw [Option.some.inj first] at mark
    cases mark

theorem Words.followedBy_head (w : Words) (gap : Nat) (more : Words) :
    (w.followedBy gap more).chars.head? = w.chars.head? :=
  List.head?_append_of_ne_nil _ w.ne

theorem Entry.opens (e : Entry) : e.words.chars.head? ≠ some '#' := by
  obtain ⟨key, value, note⟩ := e
  cases value <;> cases note <;>
    simpa only [Entry.words, Option.elim, Words.followedBy_head] using key.opens

theorem unskipped {w : Words} (opens : w.chars.head? ≠ some '#') (pad : Nat) :
    ¬ isSkipped (Row.body ⟨pad, some w⟩) = true := by
  simp [isSkipped, Row.body, w.ne, opens]

theorem scan_outside {s : Scan} {rows : List Row} (out : s.inServices = false)
    (plain : ∀ row ∈ rows, opensServices row.body = false) : rows.foldl scanRow s = s := by
  induction rows with
  | nil => rfl
  | cons row rows ih =>
    have here : scanRow s row = s := by
      rw [scanRow, scanTrimmed, plain row List.mem_cons_self, out]
      split <;> rfl
    rw [List.foldl_cons, here, ih fun r mem => plain r (List.mem_cons_of_mem row mem)]

/-- A line that is not indented ends the services, and nothing below it is taken for one. -/
theorem scan_topLevel {s : Scan} {w : Words} {rows : List Row} (opens : w.chars.head? ≠ some '#')
    (plain : ∀ row ∈ ⟨0, some w⟩ :: rows, opensServices row.body = false) :
    ((⟨0, some w⟩ :: rows).foldl scanRow s).services = s.services ∧
      ((⟨0, some w⟩ :: rows).foldl scanRow s).hadAnomalies = s.hadAnomalies := by
  cases out : s.inServices with
  | false =>
    rw [scan_outside out plain]
    exact ⟨rfl, rfl⟩
  | true =>
    have left : scanRow s ⟨0, some w⟩ =
        { s with inServices := false, currentService := [], serviceIndent := -1 } := by
      rw [scanRow, scanTrimmed, if_neg (unskipped opens 0), plain _ List.mem_cons_self, out]
      rfl
    rw [List.foldl_cons, left, scan_outside rfl fun r mem => plain r (List.mem_cons_of_mem _ mem)]
    exact ⟨rfl, rfl⟩

theorem scan_after {step : Nat} {nodes : List Node}
    (plain : ∀ row ∈ rowsOf step 0 nodes, opensServices row.body = false) (s : Scan) :
    ((rowsOf step 0 nodes).foldl scanRow s).services = s.services ∧
      ((rowsOf step 0 nodes).foldl scanRow s).hadAnomalies = s.hadAnomalies := by
  induction nodes generalizing s with
  | nil => exact ⟨rfl, rfl⟩
  | cons node nodes ih =>
    rw [rowsOf] at plain ⊢
    have rest := ih fun r mem => plain r (List.mem_append_right _ mem)
    have here : ((node.rows step 0).foldl scanRow s).services = s.services ∧
        ((node.rows step 0).foldl scanRow s).hadAnomalies = s.hadAnomalies := by
      replace plain := fun r mem => plain r (List.mem_append_left _ mem)
      cases node with
      | remark r =>
        rw [Node.rows, List.foldl_cons, scanRow_skipped r.skipped]
        exact ⟨rfl, rfl⟩
      | entry e below => exact scan_topLevel e.opens plain
      | words w opens below => exact scan_topLevel opens plain
    rw [List.foldl_append, (rest _).1, (rest _).2]
    exact here

mutual

theorem Node.indented (step depth : Nat) : (node : Node) → ∀ row ∈ node.rows step depth,
    isSkipped row.body = true ∨ step * depth ≤ row.pad
  | .remark r => by
    intro row mem
    rw [List.mem_singleton.mp mem]
    exact .inl r.skipped
  | .entry e below => by
    rintro row (- | ⟨-, mem⟩)
    · exact .inr le_rfl
    · exact (rowsOf_indented step (depth + 1) below row mem).imp id
        (le_trans (Nat.mul_le_mul_left step depth.le_succ))
  | .words w opens below => by
    rintro row (- | ⟨-, mem⟩)
    · exact .inr le_rfl
    · exact (rowsOf_indented step (depth + 1) below row mem).imp id
        (le_trans (Nat.mul_le_mul_left step depth.le_succ))

theorem rowsOf_indented (step depth : Nat) : (nodes : List Node) →
    ∀ row ∈ rowsOf step depth nodes, isSkipped row.body = true ∨ step * depth ≤ row.pad
  | [] => fun _ mem => nomatch mem
  | node :: nodes => fun row mem => (List.mem_append.mp mem).elim
      (node.indented step depth row) (rowsOf_indented step depth nodes row)

end

def Inside (step : Nat) (s : Scan) : Prop :=
  s.inServices = true ∧ s.serviceIndent = step ∧ 0 < step ∧ step < 2 ^ 31

theorem asUsize_step {step : Nat} (narrow : step < 2 ^ 31) : asUsize step = step := by
  rw [asUsize]
  omega

theorem scanRow_inside {s : Scan} {row : Row} (on : s.inServices = true)
    (unskipped : ¬ isSkipped row.body = true) (plain : opensServices row.body = false)
    (indented : row.pad ≠ 0) : scanRow s row =
      if s.serviceIndent < 0 then
        scanEntry { s with serviceIndent := asI32 row.pad } row.pad row.body
      else scanEntry s row.pad row.body := by
  rw [scanRow, scanTrimmed, if_neg unskipped, plain, on, if_neg (by decide), if_neg (by decide),
    if_neg indented]

theorem scanRow_deep {step : Nat} {s : Scan} (inside : Inside step s) {row : Row}
    (unskipped : ¬ isSkipped row.body = true) (deep : step < row.pad)
    (plain : opensServices row.body = false) : scanRow s row =
      if s.currentService ≠ [] then
        match imageOf row.body with
        | some img =>
          { s with services := s.services ++ [⟨String.ofList s.currentService, String.ofList img⟩] }
        | none => s
      else s := by
  obtain ⟨on, indent, positive, narrow⟩ := inside
  have known : ¬ s.serviceIndent < 0 := by omega
  have deeper : asUsize s.serviceIndent < row.pad := by rwa [indent, asUsize_step narrow]
  rw [scanRow_inside on unskipped plain (by omega), if_neg known, scanEntry,
    if_neg fun h => absurd h.2.1 (by omega)]
  simp only [deeper, and_true]

theorem scan_unread {step : Nat} {s : Scan} (inside : Inside step s) {rows : List Row}
    (deep : ∀ row ∈ rows, isSkipped row.body = true ∨ step < row.pad)
    (plain : ∀ row ∈ rows, opensServices row.body = false)
    (unread : ∀ row ∈ rows, imageOf row.body = none) : rows.foldl scanRow s = s := by
  induction rows with
  | nil => rfl
  | cons row rows ih =>
    rw [List.forall_mem_cons] at deep plain unread
    have here : scanRow s row = s := by
      by_cases skipped : isSkipped row.body = true
      · exact scanRow_skipped skipped s
      · rw [scanRow_deep inside skipped (deep.1.resolve_left skipped) plain.1, unread.1, ite_self]
    rw [List.foldl_cons, here, ih deep.2 plain.2 unread.2]

theorem Scalar.chars_plain {v : Scalar} (plain : v.mark = none) : v.words.chars = v.text := by
  unfold Scalar.words
  split
  · rfl
  · next q marked => rw [plain] at marked; cases marked

theorem Scalar.trimmed_words {v : Scalar} (ends : ∀ c ∈ edges v.text, isQuoteMark c = false) :
    trimQuoteMarks v.words.chars = v.text := by
  have between {marks : List Char} (quotes : ∀ c ∈ marks, isQuoteMark c = true) :
      trimQuoteMarks (marks ++ v.text ++ marks) = v.text :=
    dropEnds_between quotes quotes fun c h => ends c (mem_edges.mpr h)
  unfold Scalar.words
  split
  · simpa using @between [] nofun
  · next q marked => exact between (List.forall_mem_singleton.mpr (v.quoted q marked).1)

theorem imageOf_entry {key value : Scalar} {gap : Nat} (plain : key.mark = none)
    (named : key.text = "image".toList)
    (ends : ∀ c ∈ edges value.text, isQuoteMark c = false) :
    imageOf (Entry.words { key, value := some (gap, value) }).chars = some value.text := by
  have whole : (Entry.words { key, value := some (gap, value) }).chars =
      IMAGE ++ ' ' :: (List.replicate gap ' ' ++ value.words.chars) := by
    simp [Entry.words, Words.followedBy, key.chars_plain plain, named, colon, IMAGE,
      List.replicate_succ]
  have blank : ∀ c ∈ ' ' :: List.replicate gap ' ', Text.isWhitespace c = true := by
    intro c mem
    rw [← List.replicate_succ] at mem
    rw [List.eq_of_mem_replicate mem]
    rfl
  rw [imageOf, whole, if_pos (List.isPrefixOf_iff_prefix.mpr (List.prefix_append _ _)),
    List.drop_left]
  dsimp only
  rw [← List.cons_append, trimChars_after blank fun c h => value.words.trimmed c (mem_edges.mpr h),
    value.trimmed_words ends]

def Scan.found (s : Scan) (values : List Scalar) : Scan :=
  { s with services := s.services ++ values.map fun value =>
      ⟨String.ofList s.currentService, String.ofList value.text⟩ }

theorem scan_node {step : Nat} {s : Scan} (inside : Inside step s) (named : s.currentService ≠ [])
    {node : Node} (clear : node.IsClear step)
    (plain : ∀ row ∈ node.rows step 2, opensServices row.body = false) :
    (node.rows step 2).foldl scanRow s = s.found node.image.toList := by
  have positive := inside.2.2.1
  have deep : ∀ row ∈ node.rows step 2, isSkipped row.body = true ∨ step < row.pad := fun row mem =>
    (node.indented step 2 row mem).imp id fun far => by omega
  have quiet (unread : ∀ row ∈ node.rows step 2, imageOf row.body = none)
      (other : node.image = none) :
      (node.rows step 2).foldl scanRow s = s.found node.image.toList := by
    rw [scan_unread inside deep plain unread, other]
    simp [Scan.found]
  cases node with
  | remark r => exact quiet clear rfl
  | words w opens below => exact quiet clear rfl
  | entry e below =>
    obtain ⟨key, value, note⟩ := e
    cases value with
    | none => exact quiet clear rfl
    | some value =>
      obtain ⟨gap, value⟩ := value
      by_cases image : key.text = "image".toList
      · rw [Node.IsClear, if_pos image] at clear
        obtain ⟨unquoted, rfl, unread, ends⟩ := clear
        rw [Node.rows, List.forall_mem_cons] at deep plain
        have opens := (Entry.mk key (some (gap, value)) none).opens
        have far := deep.1.resolve_left (unskipped opens _)
        have here := scanRow_deep inside (unskipped opens _) far plain.1
        rw [if_pos named, Row.body, Option.elim, imageOf_entry unquoted image ends] at here
        have still : Inside step (s.found [value]) := inside
        rw [Node.rows, List.foldl_cons, here, Node.image, if_pos image]
        exact scan_unread still deep.2 plain.2 unread
      · rw [Node.IsClear, if_neg image] at clear
        exact quiet clear (by rw [Node.image, if_neg image])

theorem scan_below {step : Nat} {s : Scan} (inside : Inside step s) (named : s.currentService ≠ [])
    {nodes : List Node} (clear : ∀ node ∈ nodes, node.IsClear step)
    (plain : ∀ row ∈ rowsOf step 2 nodes, opensServices row.body = false) :
    (rowsOf step 2 nodes).foldl scanRow s = s.found (nodes.filterMap Node.image) := by
  induction nodes generalizing s with
  | nil => simp [rowsOf, Scan.found]
  | cons node nodes ih =>
    rw [List.forall_mem_cons] at clear
    rw [rowsOf, List.forall_mem_append] at plain
    have still : Inside step (s.found node.image.toList) := inside
    rw [rowsOf, List.foldl_append, scan_node inside named clear.1 plain.1,
      ih still named clear.2 plain.2, List.filterMap_cons]
    cases node.image <;> simp [Scan.found]

theorem scan_service {step : Nat} {s : Scan} (on : s.inServices = true) (positive : 0 < step)
    (narrow : step < 2 ^ 31) (indent : s.serviceIndent = -1 ∨ s.serviceIndent = step)
    {service : Service} (clear : service.IsClear step)
    (plain : ∀ row ∈ service.rows step, opensServices row.body = false) :
    (service.rows step).foldl scanRow s =
      { s with services := s.services ++ service.images
               currentService := service.key.text
               serviceIndent := step } := by
  obtain ⟨before, key, note, below⟩ := service
  obtain ⟨unquoted, rfl, own_name, below_clear⟩ := clear
  obtain ⟨ne, -, -, last, -, -⟩ := key.plain unquoted
  rw [Service.rows, List.forall_mem_append, List.forall_mem_cons] at plain
  have whole : (Entry.words { key }).chars = key.text ++ [':'] := by
    simp [Entry.words, Words.followedBy, key.chars_plain unquoted, colon]
  have named (t : Scan) (at_step : t.serviceIndent = step) :
      scanEntry t step (key.text ++ [':']) = { t with currentService := key.text } := by
    have name : trimEndColons (key.text ++ [':']) = key.text := by
      have back : key.text.reverse.dropWhile (· == ':') = key.text.reverse := by
        rw [List.getLast?_eq_head?_reverse] at last
        cases reversed : key.text.reverse with
        | nil => rfl
        | cons c rest =>
          rw [List.dropWhile_cons_of_neg]
          intro same
          rw [reversed] at last
          exact last (congrArg some (eq_of_beq same))
      rw [trimEndColons, List.reverse_append, List.reverse_singleton]
      change (key.text.reverse.dropWhile (· == ':')).reverse = key.text
      rw [back, List.reverse_reverse]
    rw [scanEntry, if_pos ⟨by omega, by rw [at_step, asUsize_step narrow], List.getLast?_concat⟩,
      name]
    simp [own_name]
  have as_i32 : asI32 step = step := by
    rw [asI32]
    omega
  have here : scanRow s ⟨step, some (Entry.words { key })⟩ =
      { s with currentService := key.text, serviceIndent := step } := by
    have unskip := unskipped (Entry.mk key none none).opens step
    rw [scanRow_inside on unskip plain.2.1 positive.ne']
    rcases indent with fresh | same
    · rw [if_pos (by omega), as_i32]
      exact (congrArg _ whole).trans (named _ rfl)
    · rw [if_neg (by omega)]
      exact (congrArg _ whole).trans ((named s same).trans (by rw [← same]))
  have inside : Inside step { s with currentService := key.text, serviceIndent := step } :=
    ⟨on, rfl, positive, narrow⟩
  rw [Service.rows, List.foldl_append, scan_remarks, List.foldl_cons, here,
    scan_below inside ne below_clear plain.2.2]
  rfl

theorem scan_services {step : Nat} {s : Scan} (on : s.inServices = true) (positive : 0 < step)
    (narrow : step < 2 ^ 31) (indent : s.serviceIndent = -1 ∨ s.serviceIndent = step)
    {services : List Service} (clear : ∀ service ∈ services, service.IsClear step)
    (plain : ∀ row ∈ services.flatMap (Service.rows step), opensServices row.body = false) :
    ((services.flatMap (Service.rows step)).foldl scanRow s).services =
        s.services ++ services.flatMap Service.images ∧
      ((services.flatMap (Service.rows step)).foldl scanRow s).hadAnomalies = s.hadAnomalies := by
  induction services generalizing s with
  | nil => simp
  | cons service services ih =>
    rw [List.forall_mem_cons] at clear
    rw [List.flatMap_cons, List.forall_mem_append] at plain
    rw [List.flatMap_cons, List.foldl_append,
      scan_service on positive narrow indent clear.1 plain.1, List.flatMap_cons,
      ← List.append_assoc]
    exact ih on (.inr rfl) clear.2 plain.2

def oneService (note : Option (Nat × Comment)) : Document where
  step := 2
  indented := by decide
  header := ⟨none, "services".toList, by decide, by decide, nofun⟩
  named := rfl
  services := [{
    key := ⟨none, "web".toList, by decide, by decide, nofun⟩
    below := [.entry {
      key := ⟨none, "image".toList, by decide, by decide, nofun⟩
      value := some (0, ⟨none, "nginx".toList, by decide, by decide, nofun⟩)
      note := note } []] }]

end Compose

end Inspectah
