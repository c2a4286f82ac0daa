import Sparkboard.Config
import Sparkboard.Loader
import Sparkboard.Proofs.Chart.Arrays
import Sparkboard.Proofs.Dashboard.Snapshot
import Sparkboard.Proofs.Json.Floats
/-!
# The JSON round trip

Every value that the library writes is read back from its text (`json_round_trip`), as well from the
compact as from the indented one.  Strings may hold any characters; whole numbers have the 32 or 64
bits of their type; floats are finite, and of each it is assumed that its decimal is read as it.
-/

namespace Sparkboard

open Json (Reader Reads ReadsBack RoundTrips Node Items SpellsDocument parse reads_record
  members_fill reads_variant reads_string reads_bool reads_word32 reads_word64 reads_optional)

/-! ## States and settings -/

theorem LoaderState.reads (s : LoaderState) : Reads reader s.toJson s :=
  reads_variant (by cases s <;> decide)

theorem BarPhase.reads (p : BarPhase) : Reads reader p.toJson p :=
  reads_variant (by cases p <;> decide)

/-- Do the widths of the bar fill at most 32 bits? -/
structure LoadingBar.Fits (bar : LoadingBar) : Prop where
  progress : bar.progress < 2 ^ 32
  width : bar.width < 2 ^ 32

theorem LoadingBar.reads {bar : LoadingBar} (h : bar.Fits) : Reads reader bar.toJson bar := by
  have hanimation : Reads (Reader.optional .string)
      ((bar.animation.map Json.string).getD .null) bar.animation :=
    reads_optional (fun s _ => reads_string s) (fun s _ => Node.noConfusion)
  refine reads_record (s := ⟨some bar.phase, some bar.visible, some bar.animation,
    some bar.progress, some bar.width⟩) (fun source => ?_) rfl
  rw [members_fill rfl rfl bar.phase.reads, members_fill rfl rfl (reads_bool bar.visible),
    members_fill rfl rfl hanimation, members_fill rfl rfl (reads_word32 h.progress),
    members_fill rfl rfl (reads_word32 h.width)]
  rfl

theorem Config.reads_word (w : UInt64) : Reads wordReader (wordJson w) w := by
  intro source
  have hword := reads_word64 w.toNat_lt source
  rw [wordReader, wordJson, hword]
  simp [Except.map]

theorem Config.reads (c : Config) : Reads reader c.toJson c := by
  refine reads_record (s := ⟨some c.animationName, some c.animationDurationMs,
    some c.animationClearDelayMs, some c.refreshDelayMs, some c.loaderAutoIdleMs,
    some c.loadingFadeInMs, some c.loadingTickMs, some c.loadingSettleMs,
    some c.loadingFadeOutMs⟩) (fun source => ?_) rfl
  rw [members_fill rfl rfl (reads_string _), members_fill rfl rfl (reads_word _),
    members_fill rfl rfl (reads_word _), members_fill rfl rfl (reads_word _),
    members_fill rfl rfl (reads_word _), members_fill rfl rfl (reads_word _),
    members_fill rfl rfl (reads_word _), members_fill rfl rfl (reads_word _),
    members_fill rfl rfl (reads_word _)]
  rfl

/-! ## The round trip -/

/-- Every value that the library writes is read back from its text, and the charts of a dashboard
from its snapshot; the keys of a map are in order.  An array of strings is read as a label set
exactly if its strings are one, an array of numbers as a series exactly if each number is read as a
float and these floats are one. -/
theorem json_round_trip :
    (∀ p : Point, (∀ x ∈ p.floats, x.isFinite = true) → (∀ x ∈ p.floats, ReadsBack x) →
      RoundTrips Point.reader p.toJson p) ∧
    (∀ s : Series, (∀ x ∈ s.values.toList, x.isFinite = true) →
      (∀ x ∈ s.values.toList, ReadsBack x) → RoundTrips Series.reader s.toJson s) ∧
    (∀ l : LabelSet, RoundTrips LabelSet.reader l.toJson l) ∧
    (∀ d : ChartData, (∀ x ∈ d.floats, x.isFinite = true) → (∀ x ∈ d.floats, ReadsBack x) →
      RoundTrips ChartData.reader d.toJson d) ∧
    (∀ s : LoaderState, RoundTrips LoaderState.reader s.toJson s) ∧
    (∀ p : BarPhase, RoundTrips BarPhase.reader p.toJson p) ∧
    (∀ bar : LoadingBar, bar.Fits → RoundTrips LoadingBar.reader bar.toJson bar) ∧
    (∀ r : ChartRoot, r.Fits → RoundTrips ChartRoot.reader r.toJson r) ∧
    (∀ t : ChartTarget, (∀ x ∈ t.floats, x.isFinite = true) → (∀ x ∈ t.floats, ReadsBack x) →
      t.root.Fits → RoundTrips ChartTarget.reader t.toJson t) ∧
    (∀ c : Config, RoundTrips Config.reader c.toJson c) ∧
    (∀ d : Dashboard, d.charts.Sorted →
      (∀ e ∈ d.charts.entries, (∀ x ∈ e.2.floats, x.isFinite = true) ∧
        (∀ x ∈ e.2.floats, ReadsBack x) ∧ e.2.root.Fits) →
      parse (Reader.table ChartTarget.reader) d.snapshot.pretty = .ok d.charts) ∧
    (∀ (text : String) (labels : List String) (l : LabelSet),
      SpellsDocument text.toList (.array (.ofNodes (labels.map .string))) →
      (parse LabelSet.reader text = .ok l ↔ LabelSet.ofList labels = .ok l)) ∧
    (∀ (text : String) (ns : List Numeral) (s : Series),
      SpellsDocument text.toList (.array (.ofNodes (ns.map Numeral.node))) →
      (parse Series.reader text = .ok s ↔
        ∃ xs, ns.map Numeral.float? = xs.map some ∧ Series.ofList xs = .ok s)) := by
  refine ⟨fun p h hback => ?_, fun s h hback => ?_, fun l => ?_, fun d h hback => ?_,
    fun s => s.reads.roundTrips, fun p => p.reads.roundTrips,
    fun bar h => (LoadingBar.reads h).roundTrips, fun r h => (ChartRoot.reads h).roundTrips,
    fun t h hback hroot => ?_, fun c => c.reads.roundTrips, fun d hsorted h => ?_,
    fun text labels l h => LabelSet.parse_strings h, fun text ns s h => Series.parse_numerals h⟩
  · exact (Point.reads h hback).roundTrips
  · exact (Series.reads h hback).roundTrips
  · exact (LabelSet.reads l).roundTrips
  · exact (ChartData.reads h hback).roundTrips
  · exact (ChartTarget.reads h hback hroot).roundTrips
  · have hreads := Dashboard.reads_snapshot hsorted (fun e he => (h e he).1)
      (fun e he => (h e he).2.1) (fun e he => (h e he).2.2)
    exact hreads.roundTrips.pretty

/-- A chart with a label that is escaped, drawn for the last time there can be. -/
def quotedTarget : ChartTarget where
  root := ⟨some ⟨"fade\x07", 2 ^ 64 - 1⟩, 2 ^ 64 - 1⟩
  line := [⟨0.1, -2.5e-7⟩]
  area := []
  axis := [⟨1e300, 5e-324, "\"ä\\\n\""⟩]

/-- Two of the coordinates have short numerals, the others are read as they were written. -/
theorem readsBack_quotedTarget : ∀ x ∈ quotedTarget.floats, ReadsBack x := by
  have htenth : Binary64.ofFloat 0.1 = .finite false 7205759403792794 (-56) := by decide +kernel
  have hsmall : Binary64.ofFloat (-2.5e-7) = .finite true 4722366482869645 (-74) := by
    decide +kernel
  have hlarge : Binary64.ofFloat 1e300 = .finite false 6724873095247260 944 := by decide +kernel
  have htiny : Binary64.ofFloat 5e-324 = .finite false 1 (-1074) := by decide +kernel
  have hfloats : quotedTarget.floats = [0.1, -2.5e-7, 1e300, 5e-324] := rfl
  simp only [hfloats, List.forall_mem_cons]
  exact ⟨Json.readsBack_of_short htenth
      ⟨by decide +kernel, by decide +kernel, by decide +kernel⟩,
    Json.readsBack_of_short hsmall ⟨by decide +kernel, by decide +kernel, by decide +kernel⟩,
    Json.readsBack_of_float? hlarge (by decide +kernel),
    Json.readsBack_of_float? htiny (by decide +kernel), List.forall_mem_nil _⟩

/-- The chart and a snapshot of it are read back, and so are the most that a bar can hold and an
array of four strings. -/
theorem json_round_trip_quotedTarget :
    RoundTrips ChartTarget.reader quotedTarget.toJson quotedTarget ∧
    parse (Reader.table ChartTarget.reader)
        { Dashboard.new .default with
          charts := ⟨[("a\"", quotedTarget), ("b", .fresh)]⟩ }.snapshot.pretty =
      .ok ⟨[("a\"", quotedTarget), ("b", .fresh)]⟩ ∧
    RoundTrips LoadingBar.reader (LoadingBar.mk .filling true none (2 ^ 32 - 1) 7).toJson
      ⟨.filling, true, none, 2 ^ 32 - 1, 7⟩ ∧
    parse LabelSet.reader (Json.array [.string "a", .string "", .string "b", .string "c"]).compact =
      .ok ⟨"a", "", "b", "c"⟩ := by
  have hback := readsBack_quotedTarget
  have hfloats : ∀ x ∈ quotedTarget.floats, x.isFinite = true := by decide +kernel
  have hroot : quotedTarget.root.Fits := by
    refine ⟨fun a ha => ?_, by decide⟩
    cases ha
    show 2 ^ 64 - 1 < 2 ^ 64
    decide
  have hbar : (LoadingBar.mk .filling true none (2 ^ 32 - 1) 7).Fits := ⟨by decide, by decide⟩
  obtain ⟨-, -, -, -, -, -, hloadingBar, -, htarget, -, hsnapshot, hlabels, -⟩ := json_round_trip
  refine ⟨htarget quotedTarget hfloats hback hroot, ?_, hloadingBar _ hbar, ?_⟩
  · refine hsnapshot _ (by unfold Table.Sorted; decide) fun e he => ?_
    simp only [List.mem_cons, List.not_mem_nil, or_false] at he
    rcases he with rfl | rfl
    · exact ⟨hfloats, hback, hroot⟩
    · exact ⟨nofun, nofun, nofun, by decide⟩
  · refine (hlabels _ ["a", "", "b", "c"] _ ?_).2 rfl
    rw [Json.compact, String.toList_ofList]
    exact (Json.spells_compactChars _).document

end Sparkboard
