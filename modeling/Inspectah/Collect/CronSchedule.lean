import Inspectah.Collect.CronFields

/-!
The calendar expression a cron expression of five fields becomes: when it can be read again,
and when it elapses.
-/
namespace Inspectah

def leadingValues : List CronItem → List CronValue × List CronItem
  | .single v :: rest => (v :: (leadingValues rest).1, (leadingValues rest).2)
  | items => ([], items)

inductive FieldShape where
  | values (vs : List CronValue)
  | star (step : Option (List Char))
  | ranged (before : List CronValue) (lo hi : CronValue) (step : Option (List Char))
      (after : List CronValue)
  | mixed

def fieldShape (items : List CronItem) : FieldShape :=
  match leadingValues items with
  | (vs, []) => .values vs
  | ([], [.star step]) => .star step
  | (before, .range lo hi step :: rest) =>
    match leadingValues rest with
    | (after, []) => .ranged before lo hi step after
    | _ => .mixed
  | _ => .mixed

def IsMixed (items : List CronItem) : Prop :=
  (2 ≤ items.length ∧ ∃ step, .star step ∈ items) ∨
  ∃ front mid back lo hi step lo' hi' step',
    items = front ++ .range lo hi step :: (mid ++ .range lo' hi' step' :: back)

theorem leadingValues_append (items : List CronItem) :
    items = (leadingValues items).1.map .single ++ (leadingValues items).2 := by
  fun_induction leadingValues items with
  | case1 v rest ih => rw [List.map_cons, List.cons_append, ← ih]
  | case2 items _ => rfl

theorem leadingValues_rest (items : List CronItem) (v : CronValue) (more : List CronItem) :
    (leadingValues items).2 ≠ .single v :: more := by
  fun_induction leadingValues items with
  | case1 _ rest ih => exact ih
  | case2 items other => exact fun same => other v more same

def FieldShape.OfItems (items : List CronItem) : FieldShape → Prop
  | values vs => items = vs.map .single
  | star step => items = [.star step]
  | ranged before lo hi step after =>
    items = before.map .single ++ .range lo hi step :: after.map .single
  | mixed => IsMixed items

theorem fieldShape_items (items : List CronItem) : (fieldShape items).OfItems items := by
  have whole := leadingValues_append items
  have first := leadingValues_rest items
  unfold fieldShape
  generalize leadingValues items = parts at *
  obtain ⟨before, rest⟩ := parts
  subst whole
  cases rest with
  | nil => exact List.append_nil _
  | cons item more =>
    cases item with
    | single v => exact absurd rfl (first v more)
    | star step =>
      have member : .star step ∈ before.map .single ++ .star step :: more := by simp
      cases before with
      | nil =>
        cases more with
        | nil => rfl
        | cons next others => exact .inl ⟨by simp, step, member⟩
      | cons v vs =>
        have mixed : IsMixed ((v :: vs).map .single ++ .star step :: more) :=
          .inl ⟨by simp; omega, step, member⟩
        cases more <;> exact mixed
    | range lo hi step =>
      have whole' := leadingValues_append more
      have first' := leadingValues_rest more
      simp only
      generalize leadingValues more = parts at *
      obtain ⟨after, others⟩ := parts
      subst whole'
      cases others with
      | nil =>
        simp only [List.append_nil]
        cases before <;> rfl
      | cons item' back =>
        cases item' with
        | single v => exact absurd rfl (first' v back)
        | star step' =>
          have mixed : IsMixed (before.map .single ++ .range lo hi step ::
              (after.map .single ++ .star step' :: back)) :=
            .inl ⟨by simp; omega, step', by simp⟩
          cases before <;> exact mixed
        | range lo' hi' step' =>
          have mixed : IsMixed (before.map .single ++ .range lo hi step ::
              (after.map .single ++ .range lo' hi' step' :: back)) :=
            .inr ⟨_, _, back, lo, hi, step, lo', hi', step', rfl⟩
          cases before <;> exact mixed

/-- An end of a range is exchanged by itself where nothing else stands on its side. -/
def BoundReads (kind : CronKind) (alone : Bool) (v : CronValue) : Prop :=
  if alone then ReadsExchanged kind v else ReadsAsWritten kind v

instance (kind : CronKind) (alone : Bool) : DecidablePred (BoundReads kind alone) := fun _ => by
  unfold BoundReads
  infer_instance

structure RangeReadable (kind : CronKind) (before : List CronValue) (lo hi : CronValue)
    (step : Option (List Char)) (after : List CronValue) : Prop where
  values_before : ∀ v ∈ before, ReadsAsWritten kind v
  start : BoundReads kind before.isEmpty lo
  finish : BoundReads kind (after.isEmpty || step.isSome) hi
  values_after : ∀ v ∈ after, ReadsAsWritten kind v
  fits : RangeFits kind step (calendarValue kind lo) (calendarValue kind hi)

instance (kind : CronKind) (before : List CronValue) (lo hi : CronValue)
    (step : Option (List Char)) (after : List CronValue) :
    Decidable (RangeReadable kind before lo hi step after) :=
  decidable_of_iff ((∀ v ∈ before, ReadsAsWritten kind v) ∧ BoundReads kind before.isEmpty lo ∧
      BoundReads kind (after.isEmpty || step.isSome) hi ∧ (∀ v ∈ after, ReadsAsWritten kind v) ∧
      RangeFits kind step (calendarValue kind lo) (calendarValue kind hi))
    ⟨fun ⟨b, s, f, a, r⟩ => ⟨b, s, f, a, r⟩, fun ⟨b, s, f, a, r⟩ => ⟨b, s, f, a, r⟩⟩

/-- A star is alone or steps through the hours; one range at most, its values as calendar
    expressions have them. -/
def FieldShape.Readable (kind : CronKind) : FieldShape → Prop
  | values vs => ∀ v ∈ vs, ReadsExchanged kind v
  | star step => step.isSome → kind = .hour
  | ranged before lo hi step after => RangeReadable kind before lo hi step after
  | mixed => False

instance (kind : CronKind) : DecidablePred (FieldShape.Readable kind)
  | .values _ => inferInstanceAs (Decidable (∀ _ ∈ _, _))
  | .star _ => inferInstanceAs (Decidable (_ → _))
  | .ranged .. => inferInstanceAs (Decidable (RangeReadable ..))
  | .mixed => inferInstanceAs (Decidable False)

def FieldShape.component (kind : CronKind) : FieldShape → CalendarComponent
  | values vs => .listed (vs.map (valueItem kind))
  | star none => .any
  | star (some digits) => .listed [⟨0, none, some (digitsValue digits)⟩]
  | ranged before lo hi step after => .listed (before.map (valueItem kind) ++
      rangeItem kind lo hi step :: after.map (valueItem kind))
  | mixed => .any

def CronField.shape {kind : CronKind} (f : CronField kind) : FieldShape := fieldShape f.items

def readField (kind : CronKind) (text : List Char) : Option CalendarComponent :=
  if text = ['*'] then some .any else (readList (readPiece kind) text).map .listed

/-- A star or a dash is in no number, no weekday and no range. -/
theorem readPiece_mark (kind : CronKind) {piece : List Char} {c : Char} (mark : c = '*' ∨ c = '-')
    (mem : c ∈ piece) : readPiece kind piece = none := by
  have no_dot : c ≠ '.' := by
    rintro rfl
    simp at mark
  have no_slash : c ≠ '/' := by
    rintro rfl
    simp at mark
  have no_number : ∀ {cs}, c ∈ cs → readNumber cs = none := by
    intro cs hc
    refine if_neg fun digits => ?_
    have digit := all_digits digits c hc
    obtain rfl | rfl := mark <;> cases digit
  have no_day : ∀ {cs}, c ∈ cs → readWeekday cs = none := by
    intro cs hc
    refine readWeekday_mark (c := c) ?_ hc
    obtain rfl | rfl := mark <;> rfl
  have no_range : ∀ {read : List Char → Option Nat}, (∀ {cs}, c ∈ cs → read cs = none) →
      ∀ {cs}, c ∈ cs → readRange read cs = none := by
    intro read fails cs hc
    obtain ⟨part, hpart, inside⟩ := mem_piece hc no_dot
    unfold readRange
    split
    next value pieces =>
      rw [pieces, List.mem_singleton] at hpart
      rw [fails (hpart ▸ inside)]
      rfl
    next lo hi pieces =>
      rw [pieces] at hpart
      simp only [List.mem_cons, List.not_mem_nil, or_false] at hpart
      obtain rfl | rfl | rfl := hpart
      · rw [fails inside]
        rfl
      · cases inside
      · rw [fails inside]
        cases read lo <;> rfl
    next => rfl
  have no_item : readItem piece = none := by
    obtain ⟨part, hpart, inside⟩ := mem_piece mem no_slash
    unfold readItem
    split
    next base pieces =>
      rw [pieces, List.mem_singleton] at hpart
      rw [no_range no_number (hpart ▸ inside)]
      rfl
    next base step pieces =>
      rw [pieces] at hpart
      simp only [List.mem_cons, List.not_mem_nil, or_false] at hpart
      obtain rfl | rfl := hpart
      · rw [no_range no_number inside]
        rfl
      · rw [readStep, no_number inside]
        cases readRange readNumber base <;> rfl
    next => rfl
  have no_weekday : readWeekdayItem piece = none := by
    rw [readWeekdayItem, no_range no_day mem]
    rfl
  cases kind <;> first | exact no_weekday | exact no_item

theorem readField_mark (kind : CronKind) {text : List Char} {c : Char} (mark : c = '*' ∨ c = '-')
    (mem : c ∈ text) (more : text ≠ ['*']) : readField kind text = none := by
  have no_comma : c ≠ ',' := by
    rintro rfl
    simp at mark
  obtain ⟨piece, hpiece, inside⟩ := mem_piece mem no_comma
  rw [readField, if_neg more, readList,
    Grouping.mapM_eq_none hpiece (readPiece_mark kind mark inside)]
  rfl

theorem readList_join {read : List Char → Option CalendarItem} {pieces : List (List Char)}
    (ne : pieces ≠ []) (plain : ∀ p ∈ pieces, ',' ∉ p) :
    readList read ([','].intercalate pieces) = pieces.mapM read := by
  rw [readList, splitChars_join ne plain]

theorem twoDigits_read : ∀ n < 60, readNumber (twoDigits n) = some n ∧
    (twoDigits n).all Char.isAlphanum := by decide

theorem normalise_alphanum {kind : CronKind} {t : List Char} (alnum : ∀ c ∈ t, c.isAlphanum) :
    ∀ c ∈ normaliseCronToken kind t, c.isAlphanum := by
  intro c hc
  obtain own | own := mem_normalise hc
  · exact alnum c own
  · exact own

theorem singleToken_read {kind : CronKind} {v : CronValue} (valid : v.IsValid kind) :
    calendarRead kind (singleToken kind v.text) = calendarRead kind (normaliseCronToken kind v.text) ∧
      ∀ c ∈ singleToken kind v.text, c.isAlphanum := by
  have alnum := (CronValue.alphanum valid).2
  unfold singleToken
  simp only
  split
  next => exact ⟨rfl, normalise_alphanum alnum⟩
  next same =>
    rw [ne_eq, not_not] at same
    split
    next clock =>
      simp only [Bool.and_eq_true, decide_eq_true_eq] at clock
      obtain ⟨⟨digits, clock⟩, -⟩ := clock
      have number : v = .number v.text := by
        cases v with
        | number _ => rfl
        | name letters =>
          cases kind with
          | minute => cases valid
          | hour => cases valid
          | dom => cases clock
          | month => cases clock
          | dow => cases clock
      have bound : digitsValue v.text < 60 := by
        rw [number] at valid
        have top := valid.2.2
        cases kind with
        | minute => exact Nat.lt_succ_of_le top
        | hour => exact lt_of_le_of_lt top (by decide)
        | dom => cases clock
        | month => cases clock
        | dow => cases clock
      obtain ⟨read, plain⟩ := twoDigits_read _ bound
      refine ⟨?_, by simpa using plain⟩
      rw [same]
      cases kind with
      | minute => exact read.trans (readNumber_digits digits).symm
      | hour => exact read.trans (readNumber_digits digits).symm
      | dom => cases clock
      | month => cases clock
      | dow => cases clock
    next => exact ⟨by rw [same], alnum⟩

theorem not_star {t : List Char} (alnum : ∀ c ∈ t, c.isAlphanum) : t ≠ ['*'] := by
  rintro rfl
  cases alnum '*' (List.mem_singleton_self _)

theorem readField_values {kind : CronKind} {vs : List CronValue} (some_value : vs ≠ [])
    (valid : ∀ v ∈ vs, v.IsValid kind) :
    readField kind (cronFieldToCalendar kind ([','].intercalate (vs.map (·.text)))) =
      if ∀ v ∈ vs, ReadsExchanged kind v then some (.listed (vs.map (valueItem kind))) else none := by
  have each : ∀ v ∈ vs, readPiece kind (normaliseCronToken kind v.text) =
      if ReadsExchanged kind v then some (valueItem kind v) else none := by
    intro v hv
    rw [readPiece_value kind (normalise_alphanum (CronValue.alphanum (valid v hv)).2),
      calendarRead_exchanged (valid v hv)]
    split <;> rfl
  match vs, some_value with
  | [v], _ =>
    have own := valid v (List.mem_singleton_self v)
    obtain ⟨read, alnum⟩ := singleToken_read own
    have piece : readPiece kind (singleToken kind v.text) =
        if ReadsExchanged kind v then some (valueItem kind v) else none := by
      rw [readPiece_value kind alnum, read, calendarRead_exchanged own]
      split <;> rfl
    have single := conversion_single own
    simp only [List.map_cons, List.map_nil, List.intercalate_singleton, single]
    rw [readField, if_neg (not_star alnum), readList, splitChars_plain (not_mem_of_alphanum alnum rfl),
      List.mapM_cons, piece]
    by_cases reads : ReadsExchanged kind v <;> simp [reads]
  | v :: w :: more, nonempty =>
    generalize hvs : v :: w :: more = vs at *
    have several : 2 ≤ vs.length := by
      rw [← hvs]
      simp
    rw [conversion_list several valid]
    have plain : ∀ p ∈ vs.map fun v => normaliseCronToken kind v.text, ',' ∉ p := by
      intro p hp
      obtain ⟨u, hu, rfl⟩ := List.mem_map.mp hp
      exact not_mem_of_alphanum (normalise_alphanum (CronValue.alphanum (valid u hu)).2) rfl
    have apart : [','].intercalate (vs.map fun v => normaliseCronToken kind v.text) ≠ ['*'] := by
      intro same
      have comma : ',' ∈ [','].intercalate (vs.map fun v => normaliseCronToken kind v.text) :=
        sep_mem_join (by simpa using several)
      rw [same] at comma
      cases List.mem_singleton.mp comma
    rw [readField, if_neg apart, readList_join (by simpa using nonempty) plain, List.mapM_map,
      Function.comp_def, Grouping.mapM_if each]
    split <;> rfl

theorem readField_star {kind : CronKind} {step : Option (List Char)} (valid : IsStep step) :
    readField kind (cronFieldToCalendar kind ('*' :: stepText step)) =
      if step.isSome → kind = .hour then some ((FieldShape.star step).component kind) else none := by
  cases step with
  | none => rfl
  | some digits =>
    have is_digits := (valid digits rfl).1
    have stepped : cronFieldToCalendar kind ('*' :: stepText (some digits)) =
        starStep kind digits ('*' :: '/' :: digits) := by
      simp [cronFieldToCalendar, stepText, List.isPrefixOf]
    have starred : ∀ kind, readField kind ('*' :: '/' :: digits) = none := fun kind =>
      readField_mark kind (.inl rfl) (List.mem_cons_self ..) (by simp)
    by_cases hour : kind = .hour
    · subst hour
      have plain : ∀ c ∈ digits, c.isAlphanum := fun c hc => by
        simp [Char.isAlphanum, all_digits is_digits c hc]
      have pieces : Text.splitChars (· == '/') ('0' :: '0' :: '/' :: digits) = [['0', '0'], digits] := by
        have tail := splitChars_plain (not_mem_of_alphanum plain (show '/'.isAlphanum = false from rfl))
        simp [Text.splitChars, tail]
      have one : Text.splitChars (· == ',') ('0' :: '0' :: '/' :: digits) =
          ['0' :: '0' :: '/' :: digits] := by
        refine splitChars_plain fun mem => ?_
        simp [not_mem_of_alphanum plain (show ','.isAlphanum = false from rfl)] at mem
      have base : readRange readNumber ['0', '0'] = some (0, none) := by decide
      have item : readItem ('0' :: '0' :: '/' :: digits) = some ⟨0, none, some (digitsValue digits)⟩ := by
        rw [readItem, pieces]
        simp [base, readStep, readNumber_digits is_digits, (valid digits rfl).2]
      have made : starStep .hour digits ('*' :: '/' :: digits) = '0' :: '0' :: '/' :: digits := by
        rw [starStep, if_pos is_digits]
        rfl
      rw [stepped, made, if_pos fun _ => rfl, readField, if_neg (by simp), readList, one,
        List.mapM_cons]
      simp only [readPiece, item]
      rfl
    · have made : starStep kind digits ('*' :: '/' :: digits) = '*' :: '/' :: digits := by
        cases kind <;> first | exact absurd rfl hour | simp [starStep, is_digits]
      rw [stepped, made, starred, if_neg fun h => hour (h rfl)]

theorem readPieces_written {kind : CronKind} {vs : List CronValue}
    (valid : ∀ v ∈ vs, v.IsValid kind) : (vs.map (·.text)).mapM (readPiece kind) =
      if ∀ v ∈ vs, ReadsAsWritten kind v then some (vs.map (valueItem kind)) else none := by
  rw [List.mapM_map]
  refine Grouping.mapM_if fun v hv => ?_
  rw [Function.comp_apply, readPiece_value kind (CronValue.alphanum (valid v hv)).2,
    calendarRead_written (valid v hv)]
  split <;> rfl

theorem readBound {kind : CronKind} {v : CronValue} (valid : v.IsValid kind) (alone : Bool) :
    calendarRead kind (if alone then normaliseCronToken kind v.text else v.text) =
      if BoundReads kind alone v then some (calendarValue kind v) else none := by
  cases alone with
  | true => exact calendarRead_exchanged valid
  | false => exact calendarRead_written valid

theorem readField_ranged {kind : CronKind} {before after : List CronValue} {lo hi : CronValue}
    {step : Option (List Char)} (valid_before : ∀ v ∈ before, v.IsValid kind)
    (valid_lo : lo.IsValid kind) (valid_hi : hi.IsValid kind) (valid_step : IsStep step)
    (valid_after : ∀ v ∈ after, v.IsValid kind) :
    readField kind (cronFieldToCalendar kind ([','].intercalate (before.map (·.text) ++
        (CronItem.range lo hi step).text :: after.map (·.text)))) =
      if RangeReadable kind before lo hi step after then
        some (.listed (before.map (valueItem kind) ++
          rangeItem kind lo hi step :: after.map (valueItem kind))) else none := by
  have alnum_lo : ∀ c ∈ rangeStart kind before lo, c.isAlphanum := by
    unfold rangeStart
    split
    · exact normalise_alphanum (CronValue.alphanum valid_lo).2
    · exact (CronValue.alphanum valid_lo).2
  have alnum_hi : ∀ c ∈ rangeEnd kind after step hi, c.isAlphanum := by
    unfold rangeEnd
    split
    · exact normalise_alphanum (CronValue.alphanum valid_hi).2
    · exact (CronValue.alphanum valid_hi).2
  have step_chars : ∀ c ∈ stepText step, c = '/' ∨ c.isAlphanum := by
    intro c hc
    cases step with
    | none => cases hc
    | some digits =>
      obtain same | own := List.mem_cons.mp hc
      · exact .inl same
      · exact .inr (by simp [Char.isAlphanum, all_digits (valid_step digits rfl).1 c own])
  have chars : ∀ c ∈ convertedRange kind before lo hi step after,
      c.isAlphanum ∨ c = '.' ∨ c = '/' := by
    intro c hc
    simp only [convertedRange, List.mem_append, List.mem_cons] at hc
    obtain (own | rfl | rfl | own) | own := hc
    · exact .inl (alnum_lo c own)
    · exact .inr (.inl rfl)
    · exact .inr (.inl rfl)
    · exact .inl (alnum_hi c own)
    · obtain same | own := step_chars c own
      · exact .inr (.inr same)
      · exact .inl own
  have dotted : '.' ∈ [','].intercalate (before.map (·.text) ++
      convertedRange kind before lo hi step after :: after.map (·.text)) :=
    mem_join_of (List.mem_append_right _ (List.mem_cons_self ..)) (by simp [convertedRange])
  have apart : [','].intercalate (before.map (·.text) ++
      convertedRange kind before lo hi step after :: after.map (·.text)) ≠ ['*'] := by
    intro same
    rw [same] at dotted
    cases List.mem_singleton.mp dotted
  have plain_values : ∀ {vs : List CronValue}, (∀ v ∈ vs, v.IsValid kind) →
      ∀ p ∈ vs.map (·.text), ',' ∉ p := by
    intro vs valid p hp
    obtain ⟨v, hv, rfl⟩ := List.mem_map.mp hp
    exact not_mem_of_alphanum (CronValue.alphanum (valid v hv)).2 rfl
  have plain : ∀ p ∈ before.map (·.text) ++ convertedRange kind before lo hi step after ::
      after.map (·.text), ',' ∉ p := by
    intro p hp
    obtain own | own := List.mem_append.mp hp
    · exact plain_values valid_before p own
    obtain rfl | own := List.mem_cons.mp own
    · intro mem
      obtain own | same | same := chars ',' mem
      · cases own
      · cases same
      · cases same
    · exact plain_values valid_after p own
  have middle : readPiece kind (convertedRange kind before lo hi step after) =
      if BoundReads kind before.isEmpty lo ∧ BoundReads kind (after.isEmpty || step.isSome) hi ∧
          RangeFits kind step (calendarValue kind lo) (calendarValue kind hi) then
        some (rangeItem kind lo hi step) else none := by
    rw [convertedRange, readPiece_range kind alnum_lo alnum_hi valid_step]
    have first : calendarRead kind (rangeStart kind before lo) = _ := readBound valid_lo before.isEmpty
    have second : calendarRead kind (rangeEnd kind after step hi) = _ :=
      readBound valid_hi (after.isEmpty || step.isSome)
    rw [first, second]
    by_cases lo_reads : BoundReads kind before.isEmpty lo
    · by_cases hi_reads : BoundReads kind (after.isEmpty || step.isSome) hi
      · simp only [lo_reads, hi_reads, if_true, Option.bind_some, true_and]
        rfl
      · simp [lo_reads, hi_reads]
    · simp [lo_reads]
  rw [conversion_range valid_before valid_lo valid_hi valid_step valid_after, readField,
    if_neg apart, readList_join (by simp) plain, List.mapM_append, List.mapM_cons,
    readPieces_written valid_before, readPieces_written valid_after, middle]
  by_cases readable : RangeReadable kind before lo hi step after
  · rw [if_pos readable, if_pos readable.values_before, if_pos readable.values_after,
      if_pos ⟨readable.start, readable.finish, readable.fits⟩]
    rfl
  · rw [if_neg readable]
    split
    next reads_before =>
      split
      next reads_range =>
        split
        next reads_after =>
          exact absurd ⟨reads_before, reads_range.1, reads_range.2.1, reads_after, reads_range.2.2⟩
            readable
        next => rfl
      next => rfl
    next => rfl

theorem first_of_star_step {kind : CronKind} {item : CronItem} {rest : List CronItem}
    (valid : item.IsValid kind)
    (begins : ['*', '/'].isPrefixOf ([','].intercalate ((item :: rest).map (·.text))) = true) :
    ∃ digits, item = .star (some digits) := by
  have value_first : ∀ {v : CronValue} {tail : List Char}, v.IsValid kind →
      ['*', '/'].isPrefixOf (v.text ++ tail) = false := by
    intro v tail valid
    obtain ⟨ne, alnum⟩ := CronValue.alphanum valid
    cases chars : v.text with
    | nil => exact absurd chars ne
    | cons c cs =>
      have apart : ('*' == c) = false := by
        rw [beq_eq_false_iff_ne]
        rintro rfl
        cases alnum '*' (by rw [chars]; exact List.mem_cons_self ..)
      simp [List.isPrefixOf, apart]
  have whole := @join_around ',' [] item.text (rest.map (·.text))
  simp only [List.nil_append, List.flatMap_nil] at whole
  rw [List.map_cons, whole] at begins
  cases item with
  | star step =>
    cases step with
    | some digits => exact ⟨digits, rfl⟩
    | none => cases rest <;> simp [CronItem.text, stepText, List.isPrefixOf] at begins
  | single v => simp [CronItem.text, value_first valid] at begins
  | range lo hi step =>
    simp [CronItem.text, List.append_assoc, value_first valid.1] at begins

theorem second_dash {field lo hi : List Char} (two : 2 ≤ field.count '-')
    (cut : field = lo ++ '-' :: hi) (first : '-' ∉ lo) : '-' ∈ hi := by
  rw [cut, List.count_append, List.count_eq_zero.mpr first, List.count_cons_self] at two
  exact List.count_pos_iff.mp (by omega)

theorem count_join {sep c : Char} (other : c ≠ sep) (pieces : List (List Char)) :
    ([sep].intercalate pieces).count c = (pieces.map (·.count c)).sum := by
  induction pieces with
  | nil => rfl
  | cons p rest ih =>
    cases rest with
    | nil => simp
    | cons q more =>
      rw [List.intercalate_cons_cons, List.count_append, List.count_append, ih, List.map_cons,
        List.sum_cons, List.count_singleton, if_neg (by simpa using Ne.symm other)]
      rfl

theorem readField_mixed {kind : CronKind} (f : CronField kind) (mixed : IsMixed f.items) :
    readField kind (cronFieldToCalendar kind f.text) = none := by
  have plain : ∀ x ∈ f.text, Text.isWhitespace x = false := fun x hx =>
    isCronChar_plain (List.all_eq_true.mp f.cronChars.2 x hx)
  by_cases step : ['*', '/'].isPrefixOf f.text = true
  · -- The whole field is returned: more than digits stand after the step.
    obtain ⟨item, rest, items⟩ := List.exists_cons_of_ne_nil f.some_item
    have text : f.text = [','].intercalate ((item :: rest).map (·.text)) := by
      rw [CronField.text, items]
    have valid := f.valid item (by rw [items]; exact List.mem_cons_self ..)
    obtain ⟨digits, rfl⟩ := first_of_star_step valid (text ▸ step)
    have some_rest : rest ≠ [] := by
      rintro rfl
      obtain ⟨several, -⟩ | ⟨front, mid, back, lo, hi, step, lo', hi', step', two⟩ := mixed
      · rw [items] at several
        simp at several
      · have size := congrArg List.length two
        rw [items] at size
        simp at size
        omega
    obtain ⟨next, more, rfl⟩ := List.exists_cons_of_ne_nil some_rest
    generalize hothers : [','].intercalate ((next :: more).map (·.text)) = others at *
    have written : f.text = '*' :: '/' :: (digits ++ ',' :: others) := by
      rw [text, List.map_cons, List.map_cons, List.intercalate_cons_cons, ← List.map_cons, hothers]
      simp [CronItem.text, stepText]
    have not_digits : isDigits (digits ++ ',' :: others) = false := by
      rw [Bool.eq_false_iff]
      intro all
      cases all_digits all ',' (by simp)
    have same : cronFieldToCalendar kind f.text = f.text := by
      rw [cronFieldToCalendar, if_neg (by rw [written]; simp), if_pos step, written]
      unfold starStep
      simp only [List.drop_succ_cons, List.drop_zero, not_digits, Bool.false_eq_true, if_false]
    rw [same]
    exact readField_mark kind (.inl rfl) (by rw [written]; simp) (by rw [written]; simp)
  · rw [Bool.not_eq_true] at step
    -- What is in the text, and no dash, is on one side of the dash.
    have kept : ∀ {c : Char}, isMark c → c ≠ '-' → c ∈ f.text →
        c ∈ cronFieldToCalendar kind f.text := by
      intro c mark other mem
      refine mem_converted plain mark step (fun lo hi cut _ => ?_) fun _ => mem
      rw [cut, List.mem_append, List.mem_cons] at mem
      obtain own | same | own := mem
      · exact .inl own
      · exact absurd same other
      · exact .inr own
    obtain ⟨several, digits, star⟩ | ⟨front, mid, back, lo, hi, step₁, lo', hi', step₂, two⟩ := mixed
    · have star_in : '*' ∈ f.text :=
        mem_join_of (List.mem_map_of_mem star) (List.mem_cons_self ..)
      have comma_in : ',' ∈ f.text := sep_mem_join (by simpa using several)
      have comma_out := kept (c := ',') rfl (by decide) comma_in
      refine readField_mark kind (.inl rfl) (kept rfl (by decide) star_in) fun same => ?_
      rw [same] at comma_out
      cases List.mem_singleton.mp comma_out
    · have dashes : 2 ≤ f.text.count '-' := by
        have own : ∀ lo hi step, 1 ≤ (CronItem.range lo hi step).text.count '-' := fun lo hi step =>
          List.count_pos_iff.mpr (by simp [CronItem.text])
        have first := own lo hi step₁
        have second := own lo' hi' step₂
        rw [CronField.text, count_join (by decide), two]
        simp only [List.map_append, List.map_cons, List.sum_append, List.sum_cons]
        omega
      have dash_out : '-' ∈ cronFieldToCalendar kind f.text := by
        refine mem_converted plain (c := '-') rfl step (fun lo hi cut first => ?_) fun none => ?_
        · exact .inr (second_dash dashes cut first)
        · exact List.count_pos_iff.mp (by omega)
      refine readField_mark kind (.inr rfl) dash_out fun same => ?_
      rw [same] at dash_out
      cases List.mem_singleton.mp dash_out

theorem readField_shape {kind : CronKind} (f : CronField kind) {shape : FieldShape}
    (items : shape.OfItems f.items) : readField kind (cronFieldToCalendar kind f.text) =
      if shape.Readable kind then some (shape.component kind) else none := by
  have text : f.text = [','].intercalate (f.items.map (·.text)) := rfl
  have valid := f.valid
  have some_item := f.some_item
  cases shape with
  | values vs =>
    rw [show f.items = vs.map .single from items] at text valid some_item
    rw [text, List.map_map]
    exact readField_values (by simpa using some_item) fun v hv => valid _ (List.mem_map_of_mem hv)
  | star step =>
    rw [show f.items = [.star step] from items] at text valid
    rw [text, List.map_singleton, List.intercalate_singleton]
    exact readField_star (valid _ (List.mem_singleton_self _))
  | ranged before lo hi step after =>
    rw [show f.items = before.map .single ++ .range lo hi step :: after.map .single from items]
      at text valid
    simp only [List.mem_append, List.mem_cons, List.mem_map] at valid
    have range := valid (.range lo hi step) (.inr (.inl rfl))
    rw [text, List.map_append, List.map_cons, List.map_map, List.map_map]
    exact readField_ranged (fun v hv => valid (.single v) (.inl ⟨v, hv, rfl⟩)) range.1 range.2.1
      range.2.2.2 fun v hv => valid (.single v) (.inr (.inr ⟨v, hv, rfl⟩))
  | mixed => exact readField_mixed f items

theorem readField_eq {kind : CronKind} (f : CronField kind) :
    readField kind (cronFieldToCalendar kind f.text) =
      if f.shape.Readable kind then some (f.shape.component kind) else none :=
  readField_shape f (fieldShape_items f.items)

section

variable {kind : CronKind} (f : CronField kind)

theorem valueItem_holds (kind : CronKind) (v : CronValue) (n : Nat) :
    (valueItem kind v).holds n = (calendarValue kind v == n) := rfl

theorem component_holds (other : kind ≠ .dow) (readable : f.shape.Readable kind) {n : Nat}
    (low : kind.first ≤ n) (high : n ≤ kind.last) :
    (f.shape.component kind).holds n = f.holds n := by
  have items := fieldShape_items f.items
  have value : ∀ v : CronValue, calendarValue kind v = v.value kind := fun v => if_neg other
  have values : ∀ vs : List CronValue, (vs.map (valueItem kind)).any (·.holds n) =
      (vs.map CronItem.single).any (·.holds kind n) := by
    intro vs
    simp only [List.any_map]
    congr 1
    funext v
    simp [Function.comp_apply, valueItem_holds, value, CronItem.holds]
  unfold CronField.holds CronField.shape at *
  generalize fieldShape f.items = shape at *
  cases shape with
  | values vs =>
    rw [show f.items = vs.map .single from items]
    exact values vs
  | star step =>
    rw [show f.items = [.star step] from items]
    cases step with
    | none =>
      simp [FieldShape.component, CalendarComponent.holds, CronItem.holds, inSteps, stepValue, low,
        high, Nat.mod_one]
    | some digits =>
      obtain rfl : kind = .hour := readable rfl
      simp only [CronKind.first, CronKind.last] at low high
      simp [FieldShape.component, CalendarComponent.holds, CalendarItem.holds, CronItem.holds, inSteps,
        stepValue, high, CronKind.first, CronKind.last]
  | ranged before lo hi step after =>
    rw [show f.items = before.map .single ++ .range lo hi step :: after.map .single from items]
    simp only [FieldShape.component, CalendarComponent.holds, List.any_append, List.any_cons, values]
    congr 2
    simp [rangeItem, CalendarItem.holds, CronItem.holds, value, stepValue]
  | mixed => cases readable

/-- From Sunday as 0 to Sunday as 7 the calendar reads Sunday alone: the other days are needed
    as values. -/
def FieldShape.KeepsWeek : FieldShape → Prop
  | ranged before lo hi _ after => lo.value .dow = 0 → hi.value .dow = 7 →
      ∀ day < 7, day ≠ 0 → ∃ v ∈ before ++ after, v.value .dow = day
  | _ => True

end

theorem CronValue.value_bounds {kind : CronKind} {v : CronValue} (valid : v.IsValid kind) :
    kind.first ≤ v.value kind ∧ v.value kind ≤ kind.last := by
  cases v with
  | number digits => exact valid.2
  | name letters =>
    have each : ∀ n ∈ kind.names, kind.first + kind.names.idxOf n ≤ kind.last := by
      cases kind <;> decide
    exact ⟨Nat.le_add_right _ _, each _ valid⟩

def CronItem.HoldsDay (item : CronItem) (day : Nat) : Prop :=
  item.holds .dow day = true ∨ day = 0 ∧ item.holds .dow 7 = true

theorem CronField.holdsDay_iff (f : CronField .dow) (day : Nat) :
    f.holdsDay day = true ↔ ∃ item ∈ f.items, item.HoldsDay day := by
  simp only [CronField.holdsDay, CronField.holds, CronItem.HoldsDay, Bool.or_eq_true,
    Bool.and_eq_true, List.any_eq_true, beq_iff_eq]
  constructor
  · rintro (⟨item, mem, own⟩ | ⟨rfl, item, mem, own⟩)
    · exact ⟨item, mem, .inl own⟩
    · exact ⟨item, mem, .inr ⟨rfl, own⟩⟩
  · rintro ⟨item, mem, own | ⟨rfl, own⟩⟩
    · exact .inl ⟨item, mem, own⟩
    · exact .inr ⟨rfl, item, mem, own⟩

theorem value_day {v : CronValue} (valid : v.IsValid .dow) {day : Nat} (low : day < 7) :
    (valueItem .dow v).holds (fromMonday day) = true ↔ (CronItem.single v).HoldsDay day := by
  have top : v.value .dow ≤ 7 := (CronValue.value_bounds valid).2
  simp only [valueItem_holds, calendarValue, if_true, CronItem.HoldsDay, CronItem.holds, beq_iff_eq,
    fromMonday]
  omega

theorem fromMonday_eq {day : Nat} (h : day ≤ 7) : fromMonday day = if day = 0 then 6 else day - 1 := by
  rw [fromMonday]
  split <;> omega

theorem week_range {lo hi day : Nat} (top_lo : lo ≤ 7) (top_hi : hi ≤ 7) (low : day < 7)
    (forward : lo ≤ hi) (order : fromMonday lo ≤ fromMonday hi) :
    fromMonday lo ≤ fromMonday day ∧ fromMonday day ≤ fromMonday hi ↔
      (lo ≤ day ∧ day ≤ hi ∨ day = 0 ∧ lo ≤ 7 ∧ 7 ≤ hi) ∧ ¬ (lo = 0 ∧ hi = 7 ∧ day ≠ 0) := by
  rw [fromMonday_eq top_lo, fromMonday_eq top_hi] at order
  rw [fromMonday_eq top_lo, fromMonday_eq top_hi, fromMonday_eq low.le]
  split_ifs at order ⊢ <;> omega

theorem range_day {lo hi : CronValue} (valid_lo : lo.IsValid .dow) (valid_hi : hi.IsValid .dow)
    (forward : lo.value .dow ≤ hi.value .dow)
    (fits : RangeFits .dow none (calendarValue .dow lo) (calendarValue .dow hi)) {day : Nat}
    (low : day < 7) : (rangeItem .dow lo hi none).holds (fromMonday day) = true ↔
      (CronItem.range lo hi none).HoldsDay day ∧
        ¬ (lo.value .dow = 0 ∧ hi.value .dow = 7 ∧ day ≠ 0) := by
  have top_lo : lo.value .dow ≤ 7 := (CronValue.value_bounds valid_lo).2
  have top_hi : hi.value .dow ≤ 7 := (CronValue.value_bounds valid_hi).2
  have order := (fits rfl).2
  simp only [calendarValue, if_true] at order
  have inside : (rangeItem .dow lo hi none).holds (fromMonday day) = true ↔
      fromMonday (lo.value .dow) ≤ fromMonday day ∧ fromMonday day ≤ fromMonday (hi.value .dow) := by
    simp [rangeItem, CalendarItem.holds, calendarValue, inSteps, Nat.mod_one]
  have own : (CronItem.range lo hi none).HoldsDay day ↔ lo.value .dow ≤ day ∧ day ≤ hi.value .dow ∨
      day = 0 ∧ lo.value .dow ≤ 7 ∧ 7 ≤ hi.value .dow := by
    simp [CronItem.HoldsDay, CronItem.holds, inSteps, stepValue, Nat.mod_one]
  rw [inside, own]
  exact week_range top_lo top_hi low forward order

theorem component_day (f : CronField .dow) (readable : f.shape.Readable .dow) {day : Nat}
    (low : day < 7) : ((f.shape.component .dow).holds (fromMonday day) = true → f.holdsDay day = true) ∧
      (f.shape.KeepsWeek → f.holdsDay day = true →
        (f.shape.component .dow).holds (fromMonday day) = true) := by
  have items := fieldShape_items f.items
  have valid := f.valid
  rw [CronField.holdsDay_iff]
  unfold CronField.shape at *
  generalize fieldShape f.items = shape at *
  have days : ∀ {vs : List CronValue}, (∀ v ∈ vs, v.IsValid .dow) →
      ((vs.map (valueItem .dow)).any (·.holds (fromMonday day)) = true ↔
        ∃ item ∈ vs.map CronItem.single, item.HoldsDay day) := by
    intro vs valid
    simp only [List.any_map, List.any_eq_true, Function.comp_apply, List.mem_map,
      exists_exists_and_eq_and]
    exact exists_congr fun v => and_congr_right fun hv => value_day (valid v hv) low
  cases shape with
  | values vs =>
    rw [show f.items = vs.map .single from items] at valid ⊢
    have own := @days vs fun v hv => valid (.single v) (List.mem_map_of_mem hv)
    exact ⟨own.mp, fun _ => own.mpr⟩
  | star step =>
    rw [show f.items = [.star step] from items]
    cases step with
    | none =>
      have all : (CronItem.star none).HoldsDay day := by
        have inside : day ≤ 7 := by omega
        exact .inl (by
          simp [CronItem.holds, inSteps, stepValue, CronKind.first, CronKind.last, Nat.mod_one, inside])
      exact ⟨fun _ => ⟨_, List.mem_singleton_self _, all⟩, fun _ _ => rfl⟩
    | some digits => cases readable rfl
  | ranged before lo hi step after =>
    rw [show f.items = before.map .single ++ .range lo hi step :: after.map .single from items]
      at valid ⊢
    simp only [List.mem_append, List.mem_cons, List.mem_map] at valid
    have range := valid (.range lo hi step) (.inr (.inl rfl))
    obtain rfl : step = none := (readable.fits rfl).1
    have first := @days before fun v hv => valid (.single v) (.inl ⟨v, hv, rfl⟩)
    have last := @days after fun v hv => valid (.single v) (.inr (.inr ⟨v, hv, rfl⟩))
    have middle := range_day range.1 range.2.1 range.2.2.1 readable.fits low
    simp only [FieldShape.component, CalendarComponent.holds, List.any_append, List.any_cons,
      Bool.or_eq_true, first, last, middle, List.mem_append, List.mem_cons, or_and_right, exists_or,
      exists_eq_left]
    refine ⟨?_, fun keeps => ?_⟩
    · rintro (own | ⟨own, -⟩ | own)
      · exact .inl own
      · exact .inr (.inl own)
      · exact .inr (.inr own)
    · rintro (own | own | own)
      · exact .inl own
      · -- Of a range through the whole week only Sunday is left, and the values have the rest.
        by_cases whole : lo.value .dow = 0 ∧ hi.value .dow = 7 ∧ day ≠ 0
        · obtain ⟨v, mem, value⟩ := keeps whole.1 whole.2.1 day low whole.2.2
          have holds : (CronItem.single v).HoldsDay day := .inl (by simpa [CronItem.holds] using value)
          obtain mem | mem := List.mem_append.mp mem
          · exact .inl ⟨_, List.mem_map_of_mem mem, holds⟩
          · exact .inr (.inr ⟨_, List.mem_map_of_mem mem, holds⟩)
        · exact .inr (.inl ⟨own, whole⟩)
      · exact .inr (.inr own)
  | mixed => cases readable

theorem lost_day (f : CronField .dow) (readable : f.shape.Readable .dow)
    (loses : ¬ f.shape.KeepsWeek) : ∃ day < 7, f.holdsDay day = true ∧
      (f.shape.component .dow).holds (fromMonday day) = false := by
  have items := fieldShape_items f.items
  have valid := f.valid
  simp only [CronField.holdsDay_iff]
  unfold CronField.shape at *
  generalize fieldShape f.items = shape at *
  cases shape with
  | values vs => exact absurd trivial loses
  | star step => exact absurd trivial loses
  | mixed => exact absurd trivial loses
  | ranged before lo hi step after =>
    rw [show f.items = before.map .single ++ .range lo hi step :: after.map .single from items]
      at valid ⊢
    simp only [List.mem_append, List.mem_cons, List.mem_map] at valid
    have range := valid (.range lo hi step) (.inr (.inl rfl))
    obtain rfl : step = none := (readable.fits rfl).1
    simp only [FieldShape.KeepsWeek, Classical.not_imp, not_forall, not_exists, not_and] at loses
    obtain ⟨from_zero, to_seven, day, low, not_sunday, absent⟩ := loses
    have no_value : ∀ {vs : List CronValue}, (∀ v ∈ vs, v ∈ before ++ after ∧ v.IsValid .dow) →
        (vs.map (valueItem .dow)).any (·.holds (fromMonday day)) = false := by
      intro vs among
      rw [List.any_map, List.any_eq_false]
      intro v hv
      rw [Function.comp_apply, value_day (among v hv).2 low]
      rintro (own | ⟨sunday, -⟩)
      · exact absent v (among v hv).1 (by simpa [CronItem.holds] using own)
      · exact not_sunday sunday
    refine ⟨day, low, ⟨.range lo hi none, by simp, .inl ?_⟩, ?_⟩
    · simp [CronItem.holds, inSteps, stepValue, from_zero, to_seven, Nat.mod_one]
      omega
    · have first := @no_value before fun v hv =>
        ⟨List.mem_append_left _ hv, valid (.single v) (.inl ⟨v, hv, rfl⟩)⟩
      have last := @no_value after fun v hv =>
        ⟨List.mem_append_right _ hv, valid (.single v) (.inr (.inr ⟨v, hv, rfl⟩))⟩
      have middle : (rangeItem .dow lo hi none).holds (fromMonday day) = false := by
        rw [Bool.eq_false_iff]
        intro holds
        have own := (range_day range.1 range.2.1 range.2.2.1 readable.fits low).mp holds
        exact own.2 ⟨from_zero, to_seven, not_sunday⟩
      simp [FieldShape.component, CalendarComponent.holds, List.any_append, first, last, middle]

end Inspectah
