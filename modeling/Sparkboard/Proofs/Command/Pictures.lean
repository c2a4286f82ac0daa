import Sparkboard.Files.Save
import Sparkboard.Proofs.Dashboard.Plot
import Sparkboard.Proofs.Files.Write
/-!
# Saving pictures

Pictures that are saved one after another in one directory, under the names of their charts.  If
every path leads to a place where a file can stand, all are saved; each is read back as the picture
of its chart, and what stands anywhere else is as before (`Saves.read`, `Saves.rest`).
-/

namespace Sparkboard

/-- Is this the picture, at a scale, of a chart with these labels and values? -/
def PictureOf (labels : List String) (values : List Float) (scale : Nat) (svg : String) : Prop :=
  ∃ target : ChartTarget, target.plot.Of labels values ∧ target.svg scale = .ok svg

namespace ChartTarget

variable {t t' : ChartTarget} {labels : List String} {values : List Float} {scale : Nat}
  {svg svg' : String}

theorem exists_svg (t : ChartTarget) (hs : scale ≤ 64) : ∃ svg, t.svg scale = .ok svg := by
  have hlimit : ¬ScaleTooLarge.limit < scale := Nat.not_lt.2 hs
  exact ⟨_, if_neg hlimit⟩

theorem svg_congr (h : t.plot = t'.plot) (scale : Nat) : t.svg scale = t'.svg scale := by
  obtain ⟨hline, harea, haxis⟩ := Plot.mk.inj h
  unfold svg picture
  rw [hline, harea, haxis]

end ChartTarget

theorem Plot.Of.unique {p q : Plot} {labels : List String} {values : List Float}
    (hp : p.Of labels values) (hq : q.Of labels values) : p = q := by
  obtain ⟨series, hs, hpline⟩ := hp.line
  obtain ⟨series', hs', hqline⟩ := hq.line
  cases hs.symm.trans hs'
  have hline : p.line = q.line := hpline.trans hqline.symm
  have harea : p.area = q.area := by rw [hp.area, hq.area, hline]
  have haxis : p.axis = q.axis := hp.axis.trans hq.axis.symm
  cases p
  cases q
  simp_all

theorem PictureOf.unique {labels : List String} {values : List Float} {scale : Nat}
    {svg svg' : String} (h : PictureOf labels values scale svg)
    (h' : PictureOf labels values scale svg') : svg = svg' := by
  obtain ⟨t, hof, hsvg⟩ := h
  obtain ⟨t', hof', hsvg'⟩ := h'
  rw [ChartTarget.svg_congr (hof.unique hof')] at hsvg
  exact Except.ok.inj (hsvg.symm.trans hsvg')

namespace FileTree

variable {t t₁ t' : FileTree} {target : ChartTarget} {path directory key svg : String} {scale : Nat}
  {location : Location} {es : List (String × ChartTarget)} {e : String × ChartTarget}

def picturePath (directory key : String) : String := Path.join directory s!"{key}.svg"

theorem saveSvg_of_leadsTo (hsvg : target.svg scale = .ok svg) (hl : t.LeadsTo path location) :
    t.saveSvg target path scale = .ok (t.put location (.file (Utf8.encode svg))) := by
  unfold saveSvg saveText
  rw [hsvg]
  simp only [write_eq_ok_iff.2 ⟨location, hl, rfl⟩]

theorem saveSvg_eq_ok (h : t.saveSvg target path scale = .ok t') :
    ∃ svg location, target.svg scale = .ok svg ∧ t.LeadsTo path location ∧
      t' = t.put location (.file (Utf8.encode svg)) := by
  unfold saveSvg saveText at h
  split at h
  · cases h
  · next svg hsvg =>
    split at h
    · next t₁ hwrite =>
      cases h
      obtain ⟨location, hl, rfl⟩ := write_eq_ok_iff.1 hwrite
      exact ⟨svg, location, hsvg, hl, rfl⟩
    · cases h

/-- The pictures of charts are saved in a directory, one after another. -/
inductive Saves (directory : String) (scale : Nat) :
    FileTree → List (String × ChartTarget) → FileTree → Prop where
  | nil {t : FileTree} : Saves directory scale t [] t
  | cons {t t₁ t' : FileTree} {e es}
    (h : t.saveSvg e.2 (picturePath directory e.1) scale = .ok t₁)
    (rest : Saves directory scale t₁ es t') : Saves directory scale t (e :: es) t'

theorem Saves.leadsTo (h : Saves directory scale t es t') (hl : t.LeadsTo path location) :
    t'.LeadsTo path location := by
  induction h with
  | nil => exact hl
  | cons h _ ih =>
    obtain ⟨svg, _, -, hplace, rfl⟩ := saveSvg_eq_ok h
    exact ih (hl.put hplace.free _)

/-- If every path leads somewhere, all pictures are saved. -/
theorem exists_saves (hs : scale ≤ 64)
    (hl : ∀ e ∈ es, ∃ location, t.LeadsTo (picturePath directory e.1) location) :
    ∃ t', Saves directory scale t es t' := by
  induction es generalizing t with
  | nil => exact ⟨t, .nil⟩
  | cons e es ih =>
    obtain ⟨location, hplace⟩ := hl e (List.mem_cons_self ..)
    obtain ⟨svg, hsvg⟩ := e.2.exists_svg hs
    obtain ⟨t', ht'⟩ := ih (t := t.put location (.file (Utf8.encode svg))) fun x hx => by
      obtain ⟨elsewhere, hx⟩ := hl x (List.mem_cons_of_mem e hx)
      exact ⟨elsewhere, hx.put hplace.free _⟩
    exact ⟨t', .cons (saveSvg_of_leadsTo hsvg hplace) ht'⟩

theorem Saves.rest (h : Saves directory scale t es t')
    (hl : ∀ e ∈ es, ∃ place, t.LeadsTo (picturePath directory e.1) place ∧ place ≠ location) :
    t'.at? location = t.at? location := by
  induction h with
  | nil => rfl
  | @cons t t₁ t' e es h rest ih =>
    obtain ⟨svg, place, -, hplace, rfl⟩ := saveSvg_eq_ok h
    obtain ⟨_, hplace', hne⟩ := hl e (List.mem_cons_self ..)
    obtain rfl := hplace.unique hplace'
    rw [ih fun x hx => ?_, at?_put (names_ne_nil hplace.free), if_neg (Ne.symm hne)]
    obtain ⟨elsewhere, hx', hother⟩ := hl x (List.mem_cons_of_mem e hx)
    exact ⟨elsewhere, hx'.put hplace.free _, hother⟩

/-- Each picture is read back, if the charts have different names. -/
theorem Saves.read (h : Saves directory scale t es t') (hn : (es.map Prod.fst).Nodup)
    (hnames : ∀ e ∈ es, Path.IsName s!"{e.1}.svg")
    (hl : ∀ e ∈ es, ∃ place, t.LeadsTo (picturePath directory e.1) place) :
    ∀ e ∈ es, ∃ svg, e.2.svg scale = .ok svg ∧
      t'.read (picturePath directory e.1) = .ok (Utf8.encode svg) := by
  induction h with
  | nil => exact List.forall_mem_nil _
  | @cons t t₁ t' e es h rest ih =>
    obtain ⟨hfresh, hn⟩ := List.nodup_cons.1 hn
    obtain ⟨svg, place, hsvg, hplace, rfl⟩ := saveSvg_eq_ok h
    have hl' (x : String × ChartTarget) (hx : x ∈ es) :
        ∃ other, (t.put place (.file (Utf8.encode svg))).LeadsTo (picturePath directory x.1) other ∧
          other ≠ place := by
      obtain ⟨other, hx'⟩ := hl x (List.mem_cons_of_mem e hx)
      have hne : s!"{x.1}.svg" ≠ s!"{e.1}.svg" := by
        intro heq
        have hkeys : x.1 = e.1 := by simpa [toString] using heq
        exact hfresh (hkeys ▸ List.mem_map_of_mem hx)
      exact ⟨other, hx'.put hplace.free _, LeadsTo.ne_of_join (hnames x (List.mem_cons_of_mem e hx))
        (hnames e (List.mem_cons_self ..)) hne hx' hplace⟩
    intro x hx
    rcases List.mem_cons.1 hx with rfl | hx
    · refine ⟨svg, hsvg, ?_⟩
      have hat : t'.at? place = some (.file (Utf8.encode svg)) := by
        rw [rest.rest hl', at?_put (names_ne_nil hplace.free), if_pos rfl]
      exact (rest.leadsTo (hplace.put hplace.free _)).read_of_at? hat
    · refine ih hn (fun y hy => hnames y (List.mem_cons_of_mem e hy)) (fun y hy => ?_) x hx
      obtain ⟨other, hy', -⟩ := hl' y hy
      exact ⟨other, hy'⟩

end FileTree

end Sparkboard
