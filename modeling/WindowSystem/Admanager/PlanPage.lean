import Mathlib.Data.List.Permutation
import Mathlib.Order.Fin.Basic
import WindowSystem.Admanager.EditAdPlan
import WindowSystem.CRuntime
import WindowSystem.HidataFramework.IPCheck
import WindowSystem.Sspserver.Filters

/-!
# The hours on the page of a plan

The page on which a plan is edited sends its hours as a text.  `addPlanTime`
makes rows of the text, and `getOneAdplanInfo` makes a text of the rows again,
from which the page is filled the next time.  The module follows the scripts
of the page, `getTime` and `renderHours`, and proves that the three agree on
the hours.
-/

namespace WindowSystem.Admanager.PlanPage

open WindowSystem.Admanager.AdPlanManage (valueOf)
open WindowSystem.Admanager.EditAdPlan
open WindowSystem.CRuntime (toInt32 toInt32_of_range)
open WindowSystem.HidataFramework.IPCheck (split_eq_of_last)
open WindowSystem.HidataFramework.JavaNumbers
open WindowSystem.Sspserver.JavaRuntime
open WindowSystem.Sspserver.Model

/-! ## The controls -/

/-- The option that a `select` of hours shows; the options are the numbers
from 0 to 23, and `none` is the index -1. -/
abbrev Select := Option (Fin 24)

/-- The attribute `value` of a `select`. -/
def Select.value (select : Select) : JavaString :=
  select.elim [] fun hour => decimal hour

/-- A check box with its first and its last hour. -/
structure Line where
  checked : Bool
  start : Select
  stop : Select

/-- The table `timeSel`: `cWork` and `cWeekend` with their hours. -/
structure Page where
  workDay : Line
  weekendDay : Line

/-- A check box that is not set, in front of the first options. -/
def Line.fresh : Line :=
  ⟨false, some 0, some 0⟩

/-- The page as it is loaded. -/
def Page.fresh : Page :=
  ⟨.fresh, .fresh⟩

/-! ## `getTime` -/

/-- The number that the digits at the beginning of a text denote. -/
def leadingNumber (string : JavaString) : Option Nat :=
  let digits := string.takeWhile Char.isDigit
  if digits = [] then none else some (Nat.ofDigitChars 10 digits 0)

/-- `parseInt` of the script on decimal numbers; `none` is `NaN`. -/
def scriptInt : JavaString → Option Int
  | '-' :: rest => (leadingNumber rest).map fun number => -number
  | '+' :: rest => (leadingNumber rest).map fun number => number
  | rest => (leadingNumber rest).map fun number => number

/-- `timeValidater`: an end before the beginning becomes the beginning. -/
def timeValidater (line : Line) : Line :=
  match scriptInt line.stop.value, scriptInt line.start.value with
  | some stop, some start =>
      if stop < start then { line with stop := line.start } else line
  | _, _ => line

/-- The half of `getTime` for a check box: what it appends, unless it returns
"error", and the line afterwards. -/
def getLine (line : Line) : Option JavaString × Line :=
  if line.checked then
    if scriptInt line.stop.value = some 0 then (none, line)
    else
      let validated := timeValidater line
      (some (text "true%start:" ++ validated.start.value ++ text "#end:" ++
        validated.stop.value), validated)
  else (some (text "false"), line)

/-- `getTime`, and the page afterwards. -/
def getTime (page : Page) : JavaString × Page :=
  match getLine page.workDay with
  | (none, workDay) => (text "error", { page with workDay })
  | (some work, workDay) =>
      match getLine page.weekendDay with
      | (none, weekendDay) => (text "error", ⟨workDay, weekendDay⟩)
      | (some weekend, weekendDay) =>
          (text "workDay:" ++ work ++ text ";weekendDay:" ++ weekend,
            ⟨workDay, weekendDay⟩)

/-! ## `renderHours` -/

/-- The effect of `selectedIndex = index`; `NaN` is converted to zero. -/
def selectedIndex (index : Option Int) : Select :=
  let index := toInt32 (index.getD 0)
  if inside : 0 ≤ index ∧ index < 24 then
    some ⟨index.toNat, by omega⟩
  else none

/-- `parseInt(part.split(":")[1])` -/
def scriptHour (part : JavaString) : Option Int :=
  (part.splitOn ':')[1]?.bind scriptInt

/-- `startIndex` and `endIndex`; without the parts there is a `TypeError`. -/
def scriptHours (subArr : List JavaString) :
    Option (Option Int × Option Int) :=
  subArr[1]?.bind fun subStr2 =>
    let subStr3 := subStr2.splitOn '#'
    subStr3[1]?.map fun last => (scriptHour (subStr3.headD []), scriptHour last)

/-- A change of the controls of the work days or of the weekends. -/
def Page.modify (page : Page) (isWorkDay : Bool) (change : Line → Line) :
    Page :=
  if isWorkDay then { page with workDay := change page.workDay }
  else { page with weekendDay := change page.weekendDay }

/-- What `renderHours` does with a part of the text; an exception leaves the
page with the check box already set. -/
def renderPart (subStr : JavaString) (page : Page) : Except Page Page :=
  let subArr := subStr.splitOn '%'
  let subArr1 := (subArr.headD []).splitOn ':'
  if subArr1[1]? = some (text "true") then
    let isWorkDay := subArr1.headD [] = text "workDay"
    let page := page.modify isWorkDay fun line => { line with checked := true }
    match scriptHours subArr with
    | none => .error page
    | some (startIndex, endIndex) =>
        .ok (page.modify isWorkDay fun line =>
          { line with
            start := selectedIndex startIndex
            stop := selectedIndex endIndex })
  else .ok page

/-- `renderHours`; parts behind the second are not looked at. -/
def renderHours (str : JavaString) (page : Page) : Except Page Page :=
  if str = [] then .ok page
  else
    let arr := str.splitOn ';'
    (renderPart (arr.headD []) page).bind fun page =>
      match arr[1]? with
      | none => .ok page
      | some subStr => renderPart subStr page

/-! ## `getOneAdplanInfo` -/

/-- A row of `ad_time_filter` as an object of `getAdTimeFiltersByAdId` and of
`getTimeFilterByAdId`. -/
def timeFilter : Row → Option AdTimeFilter
  | [some daysOfWeek, some startHour, some endHour, _] =>
      (parseInt asciiPlatform startHour).bind fun startHour =>
        (parseInt asciiPlatform endHour).map fun endHour =>
          ⟨daysOfWeek, startHour, endHour⟩
  | _ => none

/-- What `timeStr` is extended by. -/
def timeStr (adTimeFilter : AdTimeFilter) : JavaString :=
  (if containsText adTimeFilter.daysOfWeek (text "1") then
    text "weekendDay:true%start:"
  else text "workDay:true%start:") ++
    valueOf adTimeFilter.startHour ++ text "#end:" ++
    valueOf adTimeFilter.endHour ++ text ";"

/-- The text `putHours` of `getOneAdplanInfo`; `null` is empty on the page. -/
def putHours (adTFList : List AdTimeFilter) : JavaString :=
  (adTFList.flatMap timeStr).dropLast

/-! ## Schedules -/

/-- Hours from a first one to a last one, which is not 0. -/
structure Hours where
  first : Fin 24
  last : Fin 24
  ordered : first ≤ last
  positive : last ≠ 0

/-- The hours of the work days and of the weekends. -/
structure Schedule where
  workDays : Option Hours
  weekends : Option Hours

/-- The hours of a check box, if it is set; `none` is a choice that cannot be
stored. -/
def Line.hours (line : Line) : Option (Option Hours) :=
  if line.checked then
    match line.start, line.stop with
    | some start, some stop =>
        if positive : stop ≠ 0 then
          some (some
            { first := start
              last := max start stop
              ordered := le_max_left start stop
              positive := fun zero => positive
                (nonpos_iff_eq_zero.mp (zero ▸ le_max_right start stop)) })
        else none
    | _, _ => none
  else some none

/-- The schedule of a page. -/
def Page.schedule (page : Page) : Option Schedule :=
  page.workDay.hours.bind fun workDays =>
    page.weekendDay.hours.map fun weekends => ⟨workDays, weekends⟩

/-- The row of hours. -/
def Hours.row (days ctStr : JavaString) (hours : Hours) : Row :=
  [some days, some (decimal hours.first), some (decimal hours.last),
    some ctStr]

/-- The rows of a schedule. -/
def Schedule.rows (ctStr : JavaString) (schedule : Schedule) : List Row :=
  schedule.workDays.toList.map (Hours.row (text "2,3,4,5,6") ctStr) ++
    schedule.weekends.toList.map (Hours.row (text "1,7") ctStr)

/-- The object of hours. -/
def Hours.timeFilter (days : JavaString) (hours : Hours) : AdTimeFilter :=
  ⟨days, hours.first.val, hours.last.val⟩

/-- The objects of a schedule. -/
def Schedule.timeFilters (schedule : Schedule) : List AdTimeFilter :=
  schedule.workDays.toList.map (Hours.timeFilter (text "2,3,4,5,6")) ++
    schedule.weekends.toList.map (Hours.timeFilter (text "1,7"))

/-- The controls that show hours. -/
def Line.ofHours : Option Hours → Line
  | none => .fresh
  | some hours => ⟨true, some hours.first, some hours.last⟩

/-- The page that shows a schedule. -/
def Schedule.page (schedule : Schedule) : Page :=
  ⟨.ofHours schedule.workDays, .ofHours schedule.weekends⟩

/-! ## Numbers -/

section Numbers

variable {number : Nat}

theorem valueOf_natCast (number : Nat) :
    valueOf (number : Int) = decimal number := by
  have printed : toString (number : Int) = toString number := rfl
  rw [valueOf, text, decimal, printed, Nat.toString_eq_ofList_toDigits,
    String.toList_ofList]

theorem leadingNumber_decimal (number : Nat) :
    leadingNumber (decimal number) = some number := by
  have whole : (decimal number).takeWhile Char.isDigit = decimal number :=
    List.takeWhile_eq_self_iff.mpr fun _ member =>
      isDigit_of_mem_decimal member
  rw [leadingNumber, whole, decimal, if_neg Nat.toDigits_ne_nil,
    Nat.ofDigitChars_toDigits (by omega) (by omega)]

theorem scriptInt_decimal (number : Nat) :
    scriptInt (decimal number) = some (number : Int) := by
  have read := leadingNumber_decimal number
  obtain ⟨first, rest, printed, isDigit⟩ := head_decimal number
  rw [printed] at read ⊢
  unfold scriptInt
  split
  case h_1 equal =>
    exact absurd (List.cons.inj equal).1 (ne_of_isDigit isDigit rfl)
  case h_2 equal =>
    exact absurd (List.cons.inj equal).1 (ne_of_isDigit isDigit rfl)
  case h_3 =>
    rw [read]
    rfl

@[simp]
theorem scriptInt_value (select : Select) :
    scriptInt select.value =
      select.map fun hour : Fin 24 => (hour.val : Int) := by
  cases select with
  | none => rfl
  | some hour => exact scriptInt_decimal hour

theorem selectedIndex_val (hour : Fin 24) :
    selectedIndex (some (hour.val : Int)) = some hour := by
  have small := hour.isLt
  have same : toInt32 (hour.val : Int) = hour.val :=
    toInt32_of_range (by omega) (by omega)
  simp only [selectedIndex, Option.getD_some, same]
  rw [dif_pos (by omega)]
  rfl

end Numbers

/-! ## The text of `getTime` -/

section Sent

variable {line : Line} {page : Page}

@[simp]
theorem checked_timeValidater (line : Line) :
    (timeValidater line).checked = line.checked := by
  rw [timeValidater]
  split
  · split_ifs <;> rfl
  · rfl

theorem timeValidater_eq (checked : Bool) (start stop : Fin 24) :
    timeValidater ⟨checked, some start, some stop⟩ =
      ⟨checked, some start, some (max start stop)⟩ := by
  simp only [timeValidater, scriptInt_value, Option.map_some, Int.ofNat_lt]
  split_ifs with less
  · rw [max_eq_left (Fin.le_def.mpr less.le)]
  · rw [max_eq_right (Fin.le_def.mpr (not_lt.mp less))]

/-- What `getTime` appends for a check box. -/
def Line.sent (line : Line) : JavaString :=
  if line.checked then
    text "true%start:" ++ line.start.value ++ text "#end:" ++ line.stop.value
  else text "false"

/-- The check box for which `getTime` returns "error". -/
def Line.Refused (line : Line) : Prop :=
  line.checked = true ∧ line.stop = some 0

instance (line : Line) : Decidable line.Refused :=
  inferInstanceAs (Decidable (_ ∧ _))

theorem fst_getLine (line : Line) :
    (getLine line).1 =
      if line.Refused then none else some (timeValidater line).sent := by
  have zero : scriptInt line.stop.value = some 0 ↔ line.stop = some 0 := by
    rw [scriptInt_value]
    cases line.stop with
    | none => simp
    | some stop =>
        rw [Option.map_some, Option.some_inj, Option.some_inj, Fin.ext_iff]
        exact Int.ofNat_eq_zero
  by_cases checked : line.checked = true
  · by_cases last : line.stop = some 0
    · rw [getLine, if_pos checked, if_pos (zero.mpr last),
        if_pos ⟨checked, last⟩]
    · rw [getLine, if_pos checked, if_neg (mt zero.mp last),
        if_neg fun refused => last refused.2, Line.sent,
        checked_timeValidater, if_pos checked]
  · rw [getLine, if_neg checked, if_neg fun refused => checked refused.1,
      Line.sent, checked_timeValidater, if_neg checked]

theorem fst_getTime (page : Page) :
    (getTime page).1 =
      if page.workDay.Refused ∨ page.weekendDay.Refused then text "error"
      else
        text "workDay:" ++ (timeValidater page.workDay).sent ++
          text ";weekendDay:" ++ (timeValidater page.weekendDay).sent := by
  have work := fst_getLine page.workDay
  have weekend := fst_getLine page.weekendDay
  rw [getTime]
  split
  case h_1 workDay equal =>
    rw [equal] at work
    rw [if_pos]
    by_contra accepted
    rw [if_neg fun refused => accepted (.inl refused)] at work
    cases work
  case h_2 sent workDay equal =>
    rw [equal] at work
    split
    case h_1 weekendDay equal =>
      rw [equal] at weekend
      rw [if_pos]
      by_contra accepted
      rw [if_neg fun refused => accepted (.inr refused)] at weekend
      cases weekend
    case h_2 sentToo weekendDay equal =>
      rw [equal] at weekend
      split_ifs at work weekend with refused refusedToo
      cases work
      cases weekend
      rw [if_neg (not_or.mpr ⟨refused, refusedToo⟩)]

end Sent

/-! ## The rows of `addPlanTime` -/

/-- Digits are read as numbers, and small letters are not blank. -/
structure Latin (platform : Platform) : Prop where
  digits : Digits platform
  letters : ∀ character : Char, 'a' ≤ character → character ≤ 'z' →
    platform.isWhitespace character = false

theorem latin_asciiPlatform : Latin asciiPlatform where
  digits := digits_asciiPlatform
  letters character first _ := by
    rw [char_le_iff] at first
    have other : character ≠ ' ' := by
      rintro rfl
      exact absurd first (by decide)
    have behind : ¬ character ≤ '\r' := by
      rw [char_le_iff]
      exact fun early => absurd (first.trans early) (by decide)
    simp [asciiPlatform, other, behind]

section Stored

variable {env : Environment} {form : Form} {line : Line} {page : Page}

section Splitting

variable {separator : Char} {left right : JavaString}

theorem split_pair (outside : separator ∉ left)
    (outsideToo : separator ∉ right) (nonempty : right ≠ []) :
    split separator (left ++ separator :: right) = [left, right] := by
  refine @split_eq_of_last separator (left ++ separator :: right) right
    [left] ?_ nonempty
  rw [List.splitOn_append_cons_self_of_not_mem outside,
    List.splitOn_eq_singleton outsideToo]
  rfl

theorem split_end (outside : separator ∉ left) (nonempty : left ≠ []) :
    split separator (left ++ [separator]) = [left] := by
  rw [split, if_pos (by simp),
    List.splitOn_append_cons_self_of_not_mem outside, List.splitOn_nil]
  simp [nonempty]

theorem split_of_not_mem (outside : separator ∉ left) :
    split separator left = [left] := by
  rw [split, if_neg outside]

end Splitting

theorem not_mem_value {character : Char}
    (noDigit : character.isDigit = false) (select : Select) :
    character ∉ select.value := by
  cases select with
  | none => exact List.not_mem_nil
  | some hour => exact not_mem_decimal noDigit

theorem hour_value (latin : Latin env.platform) {name : JavaString}
    (outside : ':' ∉ name) (nonempty : name ≠ []) (select : Select) :
    hour env (some (name ++ ':' :: select.value)) =
      select.map fun hour : Fin 24 => (hour.val : Int) := by
  rw [hour, Option.bind_some]
  cases select with
  | none =>
      rw [Select.value, Option.elim_none, split_end outside nonempty]
      rfl
  | some hour =>
      have small := hour.isLt
      rw [Select.value, Option.elim_some, split_pair outside
        (not_mem_decimal rfl) Nat.toDigits_ne_nil]
      exact parseInt_decimal latin.digits (by omega)

/-- The days of a label. -/
def days (label : JavaString) : JavaString :=
  if label = text "workDay" then text "2,3,4,5,6" else text "1,7"

theorem adTimeFilter_sent (latin : Latin env.platform) {label : JavaString}
    (percent : '%' ∉ label) (colon : ':' ∉ label) (line : Line) :
    adTimeFilter env (label ++ ':' :: line.sent) =
      if line.checked then
        line.start.bind fun start : Fin 24 =>
          line.stop.map fun stop : Fin 24 =>
            [[some (days label), some (decimal start), some (decimal stop),
              some env.ctStr]]
      else some [] := by
  by_cases checked : line.checked = true
  · have parted : label ++ ':' :: line.sent =
        (label ++ ':' :: text "true") ++ '%' ::
          ((text "start" ++ ':' :: line.start.value) ++ '#' ::
            (text "end" ++ ':' :: line.stop.value)) := by
      have start : text "true%start:" =
          text "true" ++ '%' :: (text "start" ++ [':']) := rfl
      have stop : text "#end:" = '#' :: (text "end" ++ [':']) := rfl
      rw [Line.sent, if_pos checked, start, stop]
      simp
    have percents : '%' ∉ label ++ ':' :: text "true" := by
      simp [percent, text]
    have percentsToo : '%' ∉ (text "start" ++ ':' :: line.start.value) ++
        '#' :: (text "end" ++ ':' :: line.stop.value) := by
      simp [text, not_mem_value]
    have sharp : '#' ∉ text "start" ++ ':' :: line.start.value := by
      simp [text, not_mem_value]
    have sharpToo : '#' ∉ text "end" ++ ':' :: line.stop.value := by
      simp [text, not_mem_value]
    have selected : split ':' (label ++ ':' :: text "true") =
        [label, text "true"] := split_pair colon (by decide) (by decide)
    have first := @hour_value env latin (text "start") (by decide) (by decide)
      line.start
    have last := @hour_value env latin (text "end") (by decide) (by decide)
      line.stop
    rw [parted, adTimeFilter, split_pair percents percentsToo (by simp),
      if_pos checked]
    simp only [List.getElem?_cons_zero, List.getElem?_cons_succ,
      Option.bind_some, selected, split_pair sharp sharpToo (by simp), first,
      last, if_true, Option.some_inj]
    cases line.start with
    | none => rfl
    | some start =>
        cases line.stop with
        | none => rfl
        | some stop => simp only [Option.map_some, Option.bind_some,
            valueOf_natCast, days]
  · have percents : '%' ∉ label ++ ':' :: text "false" := by
      simp [percent, text]
    have selected : split ':' (label ++ ':' :: text "false") =
        [label, text "false"] := split_pair colon (by decide) (by decide)
    have other : text "false" ≠ text "true" := by decide
    rw [Line.sent, if_neg checked, if_neg checked, adTimeFilter,
      split_of_not_mem percents]
    simp only [List.getElem?_cons_zero, List.getElem?_cons_succ,
      Option.bind_some, selected, if_neg other]

theorem Line.Refused.hours_eq (refused : line.Refused) : line.hours = none := by
  obtain ⟨_, start, stop⟩ := line
  obtain ⟨set, last⟩ := refused
  cases set
  cases last
  cases start <;> rfl

theorem adTimeFilter_validated (latin : Latin env.platform)
    {label : JavaString} (percent : '%' ∉ label) (colon : ':' ∉ label)
    (accepted : ¬ line.Refused) :
    adTimeFilter env (label ++ ':' :: (timeValidater line).sent) =
      line.hours.map fun hours =>
        hours.toList.map (Hours.row (days label) env.ctStr) := by
  rw [adTimeFilter_sent latin percent colon, checked_timeValidater,
    Line.hours]
  by_cases checked : line.checked = true
  · obtain ⟨_, start, stop⟩ := line
    cases checked
    rw [if_pos rfl, if_pos rfl]
    cases start with
    | none => cases stop <;> simp [timeValidater]
    | some start =>
        cases stop with
        | none => simp [timeValidater]
        | some stop =>
            have positive : stop ≠ 0 := by
              rintro rfl
              exact accepted ⟨rfl, rfl⟩
            rw [timeValidater_eq]
            simp only [dif_pos positive, ne_eq]
            rfl
  · rw [if_neg checked, if_neg checked]
    rfl

theorem isNotBlank_of_letter {platform : Platform} (latin : Latin platform)
    {first : Char} {rest : JavaString} (after : 'a' ≤ first)
    (before : first ≤ 'z') : isNotBlank platform (first :: rest) = true := by
  simp [isNotBlank, isBlank, latin.letters first after before]

theorem not_mem_sent (line : Line) : ';' ∉ line.sent := by
  rw [Line.sent]
  split_ifs
  · simp [text, not_mem_value]
  · decide

/-- What `addPlanTime` makes of the text of a page: the rows of its schedule,
or an exception if it has none. -/
theorem adTimeFilters_getTime (latin : Latin env.platform)
    (sent : form.putHours = (getTime page).1) :
    submitted env form .adTimeFilter =
      page.schedule.map (Schedule.rows env.ctStr) := by
  rw [fst_getTime] at sent
  rw [submitted, adTimeFilters, parts, sent, Page.schedule]
  split_ifs with refused notBlank notBlank
  · have whole : split ';' (text "error") = [text "error"] := by decide
    have thrown : adTimeFilter env (text "error") = none := by
      have first : split '%' (text "error") = [text "error"] := by decide
      have second : split ':' (text "error") = [text "error"] := by decide
      rw [adTimeFilter, first]
      simp only [List.getElem?_cons_zero, Option.bind_some, second]
      rfl
    rw [whole, List.map_singleton, thrown]
    rcases refused with refused | refused
    · rw [refused.hours_eq]
      rfl
    · rw [refused.hours_eq]
      cases page.workDay.hours <;> rfl
  · exact absurd (isNotBlank_of_letter latin (by decide) (by decide)) notBlank
  · obtain ⟨work, weekend⟩ := not_or.mp refused
    have parted : text "workDay:" ++ (timeValidater page.workDay).sent ++
        text ";weekendDay:" ++ (timeValidater page.weekendDay).sent =
          (text "workDay" ++ ':' :: (timeValidater page.workDay).sent) ++
            ';' :: (text "weekendDay" ++ ':' ::
              (timeValidater page.weekendDay).sent) := by
      have first : text "workDay:" = text "workDay" ++ [':'] := rfl
      have second : text ";weekendDay:" =
          ';' :: (text "weekendDay" ++ [':']) := rfl
      rw [first, second]
      simp
    have outside : ';' ∉
        text "workDay" ++ ':' :: (timeValidater page.workDay).sent := by
      simp [text, not_mem_sent]
    have outsideToo : ';' ∉
        text "weekendDay" ++ ':' :: (timeValidater page.weekendDay).sent := by
      simp [text, not_mem_sent]
    have workDays : days (text "workDay") = text "2,3,4,5,6" := by decide
    have weekendDays : days (text "weekendDay") = text "1,7" := by decide
    rw [parted, split_pair outside outsideToo (by simp), List.map_cons,
      List.map_singleton,
      adTimeFilter_validated latin (by decide) (by decide) work,
      adTimeFilter_validated latin (by decide) (by decide) weekend,
      workDays, weekendDays]
    cases page.workDay.hours with
    | none => rfl
    | some hours =>
        cases page.weekendDay.hours with
        | none => rfl
        | some hoursToo => simp [Schedule.rows]
  · exact absurd (isNotBlank_of_letter latin (by decide) (by decide)) notBlank

end Stored

/-! ## The page that is filled again -/

section Filled

variable {env : Environment} {form : Form} {page : Page} {hours : Hours}
  {schedule : Schedule}

/-- The part of the text for a check box that is set. -/
def Hours.part (label : JavaString) (hours : Hours) : JavaString :=
  label ++ text ":true%start:" ++ decimal hours.first ++ text "#end:" ++
    decimal hours.last

theorem part_eq (label : JavaString) (hours : Hours) :
    hours.part label =
      (label ++ ':' :: text "true") ++ '%' ::
        ((text "start" ++ ':' :: decimal hours.first) ++ '#' ::
          (text "end" ++ ':' :: decimal hours.last)) := by
  have start : text ":true%start:" =
      ':' :: text "true" ++ '%' :: (text "start" ++ [':']) := rfl
  have stop : text "#end:" = '#' :: (text "end" ++ [':']) := rfl
  rw [Hours.part, start, stop]
  simp

theorem timeStr_timeFilter {label : JavaString}
    (known : label = text "workDay" ∨ label = text "weekendDay")
    (hours : Hours) :
    timeStr (hours.timeFilter (days label)) = hours.part label ++ [';'] := by
  have work : containsText (days (text "workDay")) (text "1") = false := by
    decide
  have weekend : containsText (days (text "weekendDay")) (text "1") = true := by
    decide
  rw [timeStr, Hours.timeFilter, valueOf_natCast, valueOf_natCast, Hours.part]
  rcases known with rfl | rfl
  · rw [work, if_neg Bool.false_ne_true]
    rfl
  · rw [weekend, if_pos rfl]
    rfl

theorem splitOn_pair {separator : Char} {left right : JavaString}
    (outside : separator ∉ left) (outsideToo : separator ∉ right) :
    (left ++ separator :: right).splitOn separator = [left, right] := by
  rw [List.splitOn_append_cons_self_of_not_mem outside,
    List.splitOn_eq_singleton outsideToo]

theorem scriptHour_decimal {name : JavaString} (colon : ':' ∉ name)
    (number : Nat) :
    scriptHour (name ++ ':' :: decimal number) = some (number : Int) := by
  rw [scriptHour, splitOn_pair colon (not_mem_decimal rfl)]
  exact scriptInt_decimal number

/-- A part sets its check box and selects its hours. -/
theorem renderPart_part {label : JavaString} (percent : '%' ∉ label)
    (colon : ':' ∉ label) (hours : Hours) (page : Page) :
    renderPart (hours.part label) page =
      .ok (page.modify (label = text "workDay")
        fun _ => .ofHours (some hours)) := by
  have percents : '%' ∉ label ++ ':' :: text "true" := by
    simp [percent, text]
  have percentsToo : '%' ∉ (text "start" ++ ':' :: decimal hours.first) ++
      '#' :: (text "end" ++ ':' :: decimal hours.last) := by
    simp [text, not_mem_decimal]
  have sharp : '#' ∉ text "start" ++ ':' :: decimal hours.first := by
    simp [text, not_mem_decimal]
  have sharpToo : '#' ∉ text "end" ++ ':' :: decimal hours.last := by
    simp [text, not_mem_decimal]
  have selected : (label ++ ':' :: text "true").splitOn ':' =
      [label, text "true"] := splitOn_pair colon (by decide)
  have read : scriptHours [label ++ ':' :: text "true",
      (text "start" ++ ':' :: decimal hours.first) ++
        '#' :: (text "end" ++ ':' :: decimal hours.last)] =
      some (some (hours.first.val : Int), some (hours.last.val : Int)) := by
    simp only [scriptHours, List.getElem?_cons_succ, List.getElem?_cons_zero,
      Option.bind_some, splitOn_pair sharp sharpToo, Option.map_some,
      List.headD_cons, @scriptHour_decimal (text "start") (by decide),
      @scriptHour_decimal (text "end") (by decide)]
  rw [part_eq, renderPart, splitOn_pair percents percentsToo]
  simp only [List.headD_cons, selected, List.getElem?_cons_succ,
    List.getElem?_cons_zero, if_true, read, selectedIndex_val]
  by_cases isWorkDay : label = text "workDay"
  · simp [Page.modify, isWorkDay, Line.ofHours]
  · simp [Page.modify, isWorkDay, Line.ofHours]

theorem not_mem_part {label : JavaString} (outside : ';' ∉ label)
    (hours : Hours) : ';' ∉ hours.part label := by
  simp [Hours.part, outside, text, not_mem_decimal]

theorem part_ne_nil {label : JavaString} (hours : Hours) :
    hours.part label ≠ [] := by
  rw [part_eq]
  simp

theorem renderHours_one {label : JavaString} (outside : ';' ∉ label)
    (hours : Hours) (page : Page) :
    renderHours (hours.part label) page =
      renderPart (hours.part label) page := by
  rw [renderHours, if_neg (part_ne_nil hours),
    List.splitOn_eq_singleton (not_mem_part outside hours)]
  dsimp only [List.headD_cons]
  cases renderPart (hours.part label) page <;> rfl

theorem renderHours_two {label other : JavaString} (outside : ';' ∉ label)
    (outsideToo : ';' ∉ other) (hours hoursToo : Hours) (page : Page) :
    renderHours (hours.part label ++ ';' :: hoursToo.part other) page =
      (renderPart (hours.part label) page).bind
        (renderPart (hoursToo.part other)) := by
  rw [renderHours, if_neg (by simp),
    splitOn_pair (not_mem_part outside hours)
      (not_mem_part outsideToo hoursToo)]
  rfl

/-- The page shows the schedule of the objects in whatever order they are
found. -/
theorem renderHours_putHours {found : List AdTimeFilter}
    (same : found.Perm schedule.timeFilters) :
    renderHours (putHours found) .fresh = .ok schedule.page := by
  have work := fun hours => timeStr_timeFilter (.inl rfl) hours
  have weekend := fun hours => timeStr_timeFilter (.inr rfl) hours
  have shownWork := fun hours page =>
    @renderPart_part (text "workDay") (by decide) (by decide) hours page
  have shownWeekend := fun hours page =>
    @renderPart_part (text "weekendDay") (by decide) (by decide) hours page
  have workDays : days (text "workDay") = text "2,3,4,5,6" := by decide
  have weekendDays : days (text "weekendDay") = text "1,7" := by decide
  rw [workDays] at work
  rw [weekendDays] at weekend
  obtain ⟨workHours, weekendHours⟩ := schedule
  cases workHours with
  | none =>
      cases weekendHours with
      | none =>
          rw [same.eq_nil]
          rfl
      | some weekendHours =>
          rw [List.perm_singleton.mp same, putHours, List.flatMap_singleton,
            weekend, List.dropLast_concat, renderHours_one (by decide),
            shownWeekend]
          rfl
  | some workHours =>
      cases weekendHours with
      | none =>
          rw [List.perm_singleton.mp same, putHours, List.flatMap_singleton,
            work, List.dropLast_concat, renderHours_one (by decide),
            shownWork]
          rfl
      | some weekendHours =>
          rcases List.perm_pair.mp same with rfl | rfl
          · rw [putHours, List.flatMap_cons, List.flatMap_singleton, work,
              weekend, ← List.append_assoc, List.dropLast_concat,
              List.append_assoc, List.singleton_append,
              renderHours_two (by decide) (by decide), shownWork]
            exact shownWeekend weekendHours _
          · rw [putHours, List.flatMap_cons, List.flatMap_singleton, work,
              weekend, ← List.append_assoc, List.dropLast_concat,
              List.append_assoc, List.singleton_append,
              renderHours_two (by decide) (by decide), shownWeekend]
            exact shownWork workHours _

/-- The rows of a schedule are read as its objects. -/
theorem timeFilter_rows (ctStr : JavaString) (schedule : Schedule) :
    (schedule.rows ctStr).filterMap timeFilter = schedule.timeFilters := by
  have row : ∀ days hours, timeFilter (Hours.row days ctStr hours) =
      some (Hours.timeFilter days hours) := by
    intro days hours
    have first := hours.first.isLt
    have last := hours.last.isLt
    rw [Hours.row, timeFilter, parseInt_decimal digits_asciiPlatform (by omega),
      Option.bind_some, parseInt_decimal digits_asciiPlatform (by omega)]
    rfl
  rw [Schedule.rows, Schedule.timeFilters, List.filterMap_append,
    List.filterMap_map, List.filterMap_map]
  simp only [Function.comp_def, row, List.filterMap_eq_map']

/-- Hours that are shown are chosen. -/
theorem hours_ofHours (hours : Option Hours) :
    (Line.ofHours hours).hours = some hours := by
  cases hours with
  | none => rfl
  | some hours =>
      simp [Line.ofHours, Line.hours, hours.positive,
        max_eq_right hours.ordered]

theorem schedule_page (schedule : Schedule) :
    schedule.page.schedule = some schedule := by
  rw [Page.schedule, Schedule.page, hours_ofHours, hours_ofHours]
  rfl

end Filled

end WindowSystem.Admanager.PlanPage
