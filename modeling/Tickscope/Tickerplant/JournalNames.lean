import Tickscope.Lib.CalendarOrder
import Tickscope.Lib.FixedWidth
import Tickscope.Tickerplant.Run

/-!
# Names of journals

`make_journal_path` rounds a time down to the start of its rotation window and writes the UTC minute
of the start into the name. The interval need not divide an hour or a day. `journal_names_order` says
that windows and names correspond, in order, and that the minute in a name is the window's start.
-/

namespace Tickscope.Tickerplant

open Tickscope.Lib

/-- From the epoch to the end of the year 9999. -/
def Dated (time : Int) : Prop := 0 ≤ time ∧ time < Calendar.timegm ⟨10000, 1, 1, 0, 0, 0⟩

instance (time : Int) : Decidable (Dated time) := inferInstanceAs (Decidable (_ ∧ _))

/-! ## The text of a minute -/

/-- `%04d%02d%02d_%02d%02d`. -/
def stamp (tm : Tm) : Str :=
  zeroPadded 4 tm.year ++ (zeroPadded 2 tm.month ++ (zeroPadded 2 tm.day ++ (ascii "_" ++
    (zeroPadded 2 tm.hour ++ zeroPadded 2 tm.minute))))

/-- The fields of a time fit into their widths. -/
structure Printable (tm : Tm) : Prop where
  year : Fits 4 tm.year
  month : Fits 2 tm.month
  day : Fits 2 tm.day
  hour : Fits 2 tm.hour
  minute : Fits 2 tm.minute

theorem printable_gmtime {time : Int} (dated : Dated time) : Printable (Calendar.gmtime time) := by
  have bound : Calendar.timegm ⟨10000, 1, 1, 0, 0, 0⟩ = 253402300800 := by decide
  obtain ⟨nonneg, lt⟩ := dated
  rw [bound] at lt
  have first := Calendar.year_le_of_le (show 0 ≤ time / 86400 by omega)
  have last := Calendar.year_le_of_le (show time / 86400 ≤ 2932896 by omega)
  have ends : (Calendar.civilFromDays 0).1 = 1970 ∧ (Calendar.civilFromDays 2932896).1 = 9999 := by
    decide
  obtain ⟨⟨month, month'⟩, day, day'⟩ := Calendar.civilFromDays_range (time / 86400)
  rw [ends.1] at first
  rw [ends.2] at last
  refine ⟨⟨?_, ?_⟩, ⟨?_, ?_⟩, ⟨?_, ?_⟩, ⟨?_, ?_⟩, ⟨?_, ?_⟩⟩
  all_goals
    simp only [Calendar.gmtime]
    omega

theorem length_stamp {tm : Tm} (printable : Printable tm) : (stamp tm).length = 13 := by
  simp only [stamp, List.length_append, length_zeroPadded printable.year,
    length_zeroPadded printable.month, length_zeroPadded printable.day,
    length_zeroPadded printable.hour, length_zeroPadded printable.minute]
  decide

/-- The texts are ordered like the minutes. -/
theorem stamp_lt_iff {a b : Tm} (ha : Printable a) (hb : Printable b) :
    stamp a < stamp b ↔ Calendar.minuteKey a < Calendar.minuteKey b := by
  have len {width : Nat} {m n : Int} (hm : Fits (width + 1) m) (hn : Fits (width + 1) n) :
      (zeroPadded (width + 1) m).length = (zeroPadded (width + 1) n).length :=
    (length_zeroPadded hm).trans (length_zeroPadded hn).symm
  rw [stamp, stamp, append_lt_append_iff (len ha.year hb.year),
    append_lt_append_iff (len ha.month hb.month), append_lt_append_iff (len ha.day hb.day),
    append_lt_append_left_iff, append_lt_append_iff (len ha.hour hb.hour),
    zeroPadded_lt_iff ha.year hb.year, zeroPadded_lt_iff ha.month hb.month,
    zeroPadded_lt_iff ha.day hb.day, zeroPadded_lt_iff ha.hour hb.hour,
    zeroPadded_lt_iff ha.minute hb.minute, zeroPadded_inj ha.year hb.year,
    zeroPadded_inj ha.month hb.month, zeroPadded_inj ha.day hb.day,
    zeroPadded_inj ha.hour hb.hour]
  simp only [Calendar.minuteKey, Calendar.dateKey, Prod.Lex.toLex_lt_toLex, toLex_inj,
    Prod.mk.injEq]
  tauto

/-! ## The minute in a name -/

/-- The time of the minute in the name of a file `polymarket_YYYYMMDD_HHMM.bin`. -/
def namedMinute (path : Str) : Int :=
  let year := readField 4 (path.drop (path.length - 17))
  let month := readField 2 year.2
  let day := readField 2 month.2
  let hour := readField 2 (day.2.drop 1)
  let minute := readField 2 hour.2
  Calendar.timegm ⟨year.1, month.1, day.1, hour.1, minute.1, 0⟩

theorem namedMinute_stamp {tm : Tm} (printable : Printable tm) (dir : Str) :
    namedMinute (dir ++ (stamp tm ++ ascii ".bin")) =
      Calendar.timegm { tm with second := 0 } := by
  have start : (dir ++ (stamp tm ++ ascii ".bin")).length - 17 = dir.length := by
    rw [List.length_append, List.length_append, length_stamp printable,
      show (ascii ".bin").length = 4 by decide]
    omega
  have gap (s : Str) : (ascii "_" ++ s).drop 1 = s := rfl
  rw [namedMinute, start, List.drop_left]
  simp only [stamp, List.append_assoc, readField_zeroPadded printable.year,
    readField_zeroPadded printable.month, readField_zeroPadded printable.day, gap,
    readField_zeroPadded printable.hour, readField_zeroPadded printable.minute]

/-! ## The name of a window -/

namespace Config

/-- The start of the window that a time is in. -/
def windowStart (cfg : Config) (now : Int) : Int :=
  cfg.timeSlot now * cfg.rotationIntervalMinutes * 60

variable {cfg : Config} {now : Int}

/-- A window starts less than one interval before each of its times. -/
theorem windowStart_le (rotates : 0 < cfg.rotationIntervalMinutes) (nonneg : 0 ≤ now) :
    0 ≤ cfg.windowStart now ∧ cfg.windowStart now ≤ now ∧
      now - cfg.rotationIntervalMinutes * 60 < cfg.windowStart now := by
  rw [windowStart, timeSlot, if_neg rotates.not_ge, Int.tdiv_eq_ediv_of_nonneg nonneg,
    Int.tdiv_eq_ediv_of_nonneg (by omega)]
  have low := Int.ediv_mul_le (now / 60) rotates.ne'
  have high := Int.lt_ediv_add_one_mul_self (now / 60) rotates
  have pos := mul_nonneg (Int.ediv_nonneg (show 0 ≤ now / 60 by omega) rotates.le) rotates.le
  rw [add_mul, one_mul] at high
  omega

theorem makeJournalPath_eq (rotates : 0 < cfg.rotationIntervalMinutes) (dated : Dated now) :
    cfg.makeJournalPath now = (cfg.journalDir ++ ascii "/polymarket_") ++
      (stamp (Calendar.gmtime (cfg.windowStart now)) ++ ascii ".bin") := by
  obtain ⟨nonneg, before, -⟩ := windowStart_le rotates dated.1
  have printable := printable_gmtime ⟨nonneg, before.trans_lt dated.2⟩
  have fits : (ascii "/polymarket_" ++ (stamp (Calendar.gmtime (cfg.windowStart now)) ++
      ascii ".bin")).length ≤ 63 := by
    rw [List.length_append, List.length_append, length_stamp printable]
    decide
  rw [List.append_assoc, ← List.take_of_length_le fits, makeJournalPath, if_pos rotates]
  simp only [stamp, List.append_assoc, windowStart]

/-- The name of a file holds the start of its window. -/
theorem namedMinute_makeJournalPath (rotates : 0 < cfg.rotationIntervalMinutes)
    (dated : Dated now) : namedMinute (cfg.makeJournalPath now) = cfg.windowStart now := by
  obtain ⟨nonneg, before, -⟩ := windowStart_le rotates dated.1
  have noSeconds : (Calendar.gmtime (cfg.windowStart now)).second = 0 := by
    simp only [Calendar.gmtime, windowStart]
    omega
  rw [makeJournalPath_eq rotates dated,
    namedMinute_stamp (printable_gmtime ⟨nonneg, before.trans_lt dated.2⟩), ← noSeconds]
  exact Calendar.timegm_gmtime _

/-- Names are ordered like windows. -/
theorem makeJournalPath_lt_iff (rotates : 0 < cfg.rotationIntervalMinutes) {t₁ t₂ : Int}
    (h₁ : Dated t₁) (h₂ : Dated t₂) :
    cfg.makeJournalPath t₁ < cfg.makeJournalPath t₂ ↔ cfg.timeSlot t₁ < cfg.timeSlot t₂ := by
  obtain ⟨nonneg₁, before₁, -⟩ := windowStart_le rotates h₁.1
  obtain ⟨nonneg₂, before₂, -⟩ := windowStart_le rotates h₂.1
  have printable₁ := printable_gmtime ⟨nonneg₁, before₁.trans_lt h₁.2⟩
  have printable₂ := printable_gmtime ⟨nonneg₂, before₂.trans_lt h₂.2⟩
  have len := (length_stamp printable₁).trans (length_stamp printable₂).symm
  rw [makeJournalPath_eq rotates h₁, makeJournalPath_eq rotates h₂, append_lt_append_left_iff,
    append_lt_append_iff len, stamp_lt_iff printable₁ printable₂]
  refine (or_iff_left fun same => List.lt_irrefl _ same.2).trans ?_
  exact Calendar.strictMono_gmtime.lt_iff_lt.trans (mul_lt_mul_iff_left₀ rotates)

end Config

/-- Windows and names of journals correspond, in order, and the minute in a name is at most the time
it was made for, by less than the rotation interval. -/
theorem journal_names_order (cfg : Config) (rotates : 0 < cfg.rotationIntervalMinutes) {t₁ t₂ : Int}
    (h₁ : Dated t₁) (h₂ : Dated t₂) :
    (cfg.makeJournalPath t₁ = cfg.makeJournalPath t₂ ↔ cfg.timeSlot t₁ = cfg.timeSlot t₂) ∧
      (cfg.makeJournalPath t₁ < cfg.makeJournalPath t₂ ↔ cfg.timeSlot t₁ < cfg.timeSlot t₂) ∧
        namedMinute (cfg.makeJournalPath t₁) ≤ t₁ ∧
          t₁ - cfg.rotationIntervalMinutes * 60 < namedMinute (cfg.makeJournalPath t₁) := by
  have ordered := Config.makeJournalPath_lt_iff rotates h₁ h₂
  have ordered' := Config.makeJournalPath_lt_iff rotates h₂ h₁
  obtain ⟨-, before, close⟩ := Config.windowStart_le rotates h₁.1
  rw [Config.namedMinute_makeJournalPath rotates h₁]
  refine ⟨⟨fun same => ?_, fun same => ?_⟩, ordered, before, close⟩
  · rw [same] at ordered ordered'
    exact le_antisymm (not_lt.mp fun lt => List.lt_irrefl _ (ordered'.mpr lt))
      (not_lt.mp fun lt => List.lt_irrefl _ (ordered.mpr lt))
  · rw [Config.makeJournalPath_eq rotates h₁, Config.makeJournalPath_eq rotates h₂,
      Config.windowStart, Config.windowStart, same]

/-- Windows of 45 minutes, on the leap day of 2024 and on the day after it. -/
theorem journal_names_order_leapDay :
    let cfg : Config := ⟨ascii "data", 45⟩
    (cfg.makeJournalPath 1709164800 = cfg.makeJournalPath 1709251200 ↔
        cfg.timeSlot 1709164800 = cfg.timeSlot 1709251200) ∧
      (cfg.makeJournalPath 1709164800 < cfg.makeJournalPath 1709251200 ↔
        cfg.timeSlot 1709164800 < cfg.timeSlot 1709251200) ∧
        namedMinute (cfg.makeJournalPath 1709164800) ≤ 1709164800 ∧
          1709164800 - 45 * 60 < namedMinute (cfg.makeJournalPath 1709164800) :=
  journal_names_order ⟨ascii "data", 45⟩ (by decide) (by decide) (by decide)

end Tickscope.Tickerplant
