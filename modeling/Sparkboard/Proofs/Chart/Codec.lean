import Sparkboard.Chart.Codec
import Sparkboard.Chart.Data
import Sparkboard.Proofs.Json.Reading
/-!
# Charts read back from JSON

The parts of a chart, and the data that charts are drawn from, are read back from their written
form, if their floats are finite and read back from their decimals.  The whole numbers in them have
64 bits.
-/

namespace Sparkboard

open Json (Reads ReadsBack reads_record members_fill reads_float reads_string reads_word64
  reads_list reads_optional)

/-! ## Points -/

def Point.floats (p : Point) : List Float := [p.x, p.y]

theorem Point.reads {p : Point} (h : ∀ x ∈ p.floats, x.isFinite = true)
    (hback : ∀ x ∈ p.floats, ReadsBack x) : Reads reader p.toJson p := by
  have hread : ∀ x ∈ p.floats, Reads .float (.float x) x := fun x hx =>
    reads_float (h x hx) (hback x hx)
  have hx := hread p.x (by simp [floats])
  have hy := hread p.y (by simp [floats])
  refine reads_record (s := ⟨some p.x, some p.y⟩) (fun source => ?_) rfl
  rw [members_fill rfl rfl hx, members_fill rfl rfl hy]
  rfl

theorem reads_wrappedList {α : Type} {r : Json.Reader α} {toJson : α → Json} {as : List α}
    (title field : String) (h : ∀ a ∈ as, Reads r (toJson a) a) :
    Reads (wrappedReader title field r) (wrappedList field toJson as) as := by
  refine reads_record (s := some as) (fun source => ?_) rfl
  have hslot := List.find?_cons_of_pos
    (p := fun slot : Json.Reader.Slot (Option (List α)) => slot.name == field)
    (l := []) (a := .of field (.list r) (fun s => s) (fun v _ => some v)) (beq_self_eq_true field)
  rw [members_fill hslot rfl (reads_list h)]
  rfl

/-! ## Roots -/

/-- Does the duration fill at most 64 bits? -/
def Animation.Fits (a : Animation) : Prop := a.durationMs < 2 ^ 64

theorem Animation.reads {a : Animation} (h : a.Fits) : Reads reader a.toJson a := by
  refine reads_record (s := ⟨some a.name, some a.durationMs⟩) (fun source => ?_) rfl
  rw [members_fill rfl rfl (reads_string a.name), members_fill rfl rfl (reads_word64 h)]
  rfl

/-- Do the numbers of the root fill at most 64 bits? -/
structure ChartRoot.Fits (r : ChartRoot) : Prop where
  animation : ∀ a ∈ r.animation, a.Fits
  generation : r.generation < 2 ^ 64

theorem ChartRoot.reads {r : ChartRoot} (h : r.Fits) : Reads reader r.toJson r := by
  have hanimation := reads_optional (fun a ha => Animation.reads (h.animation a ha))
    (fun a _ => Json.Node.noConfusion)
  refine reads_record (s := ⟨some r.animation, some r.generation⟩) (fun source => ?_) rfl
  rw [members_fill rfl rfl hanimation, members_fill rfl rfl (reads_word64 h.generation)]
  rfl

/-! ## Targets -/

def AxisLabel.floats (l : AxisLabel) : List Float := [l.x, l.y]

theorem AxisLabel.reads {l : AxisLabel} (h : ∀ x ∈ l.floats, x.isFinite = true)
    (hback : ∀ x ∈ l.floats, ReadsBack x) : Reads reader l.toJson l := by
  have hread : ∀ x ∈ l.floats, Reads .float (.float x) x := fun x hx =>
    reads_float (h x hx) (hback x hx)
  have hx := hread l.x (by simp [floats])
  have hy := hread l.y (by simp [floats])
  refine reads_record (s := ⟨some l.x, some l.y, some l.text⟩) (fun source => ?_) rfl
  rw [members_fill rfl rfl hx, members_fill rfl rfl hy, members_fill rfl rfl (reads_string l.text)]
  rfl

def ChartTarget.floats (t : ChartTarget) : List Float :=
  (t.line ++ t.area).flatMap Point.floats ++ t.axis.flatMap AxisLabel.floats

theorem ChartTarget.reads {t : ChartTarget} (h : ∀ x ∈ t.floats, x.isFinite = true)
    (hback : ∀ x ∈ t.floats, ReadsBack x) (hroot : t.root.Fits) : Reads reader t.toJson t := by
  have hpoint (p : Point) (hp : p ∈ t.line ++ t.area) : ∀ x ∈ p.floats, x ∈ t.floats := fun x hx =>
    List.mem_append_left _ (List.mem_flatMap.2 ⟨p, hp, hx⟩)
  have hpoints : ∀ p ∈ t.line ++ t.area, Reads Point.reader p.toJson p := fun p hp =>
    Point.reads (fun x hx => h x (hpoint p hp x hx)) fun x hx => hback x (hpoint p hp x hx)
  have hlabel (l : AxisLabel) (hl : l ∈ t.axis) : ∀ x ∈ l.floats, x ∈ t.floats := fun x hx =>
    List.mem_append_right _ (List.mem_flatMap.2 ⟨l, hl, hx⟩)
  have hlabels : ∀ l ∈ t.axis, Reads AxisLabel.reader l.toJson l := fun l hl =>
    AxisLabel.reads (fun x hx => h x (hlabel l hl x hx)) fun x hx => hback x (hlabel l hl x hx)
  have hline : ∀ p ∈ t.line, Reads Point.reader p.toJson p := fun p hp =>
    hpoints p (List.mem_append_left _ hp)
  have harea : ∀ p ∈ t.area, Reads Point.reader p.toJson p := fun p hp =>
    hpoints p (List.mem_append_right _ hp)
  refine reads_record (s := ⟨some t.root, some t.line, some t.area, some t.axis⟩)
    (fun source => ?_) rfl
  rw [members_fill rfl rfl (ChartRoot.reads hroot),
    members_fill rfl rfl (reads_wrappedList _ _ hline),
    members_fill rfl rfl (reads_wrappedList _ _ harea),
    members_fill rfl rfl (reads_wrappedList _ _ hlabels)]
  rfl

/-! ## Data -/

def ChartData.floats (d : ChartData) : List Float := d.employee ++ (d.ssh ++ d.signs)

theorem ChartData.reads {d : ChartData} (h : ∀ x ∈ d.floats, x.isFinite = true)
    (hback : ∀ x ∈ d.floats, ReadsBack x) : Reads reader d.toJson d := by
  have hread : ∀ x ∈ d.floats, Reads .float (.float x) x := fun x hx =>
    reads_float (h x hx) (hback x hx)
  have hlabels := reads_list fun l (_ : l ∈ d.labels) => reads_string l
  have hemployee := reads_list fun x (hx : x ∈ d.employee) => hread x (by simp [floats, hx])
  have hssh := reads_list fun x (hx : x ∈ d.ssh) => hread x (by simp [floats, hx])
  have hsigns := reads_list fun x (hx : x ∈ d.signs) => hread x (by simp [floats, hx])
  refine reads_record (s := ⟨some d.labels, some d.employee, some d.ssh, some d.signs⟩)
    (fun source => ?_) rfl
  rw [members_fill rfl rfl hlabels, members_fill rfl rfl hemployee, members_fill rfl rfl hssh,
    members_fill rfl rfl hsigns]
  rfl

end Sparkboard
