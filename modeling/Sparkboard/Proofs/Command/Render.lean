import Sparkboard.Proofs.Command.Pictures
import Sparkboard.Proofs.Command.Rendering
import Sparkboard.Proofs.Command.Steps
/-!
# Rendering from end to end

The command goes through its steps in one session: it loads, renders, prints a line for each chart
that is skipped, and then either fails or writes (`Ends.render`, `ends_writeRendering`).  What it
writes are the pictures of the visible charts, which are those to be pictured
(`exists_holdsPictures`).  The main result tells the whole report (`render_pictures_drawable`).
-/

namespace Sparkboard.Command

open FileTree (picturePath Saves)

variable {o : RenderOptions} {config : Config} {data : ChartData} {r : Rendering} {s : Session}
  {files t t' dirs : FileTree} {es : List (String × ChartTarget)}

def skippedLine (e : String × ChartError) : String :=
  s!"Skipped chart {e.1}: {e.2.message}"

def pictureLine (directory key : String) : String :=
  s!"Wrote chart to {picturePath directory key}"

def snapshotLine (path : String) : String :=
  s!"Wrote snapshot to {path}"

/-! ## Writing -/

theorem ends_settings (hc : match o.config with
      | none => config = .default
      | some path => files.loadConfig path = .ok config) (s : Session) :
    Ends (settings o files) s (.ok config) s := by
  unfold settings
  cases ho : o.config with
  | none =>
    simp only [ho] at hc
    rw [hc]
    exact ends_pure _ s
  | some path =>
    simp only [ho] at hc
    exact ends_loaded hc s

def Session.pictured (s : Session) (directory : String) (keys : List String) (t : FileTree) :
    Session :=
  (s.changed t (keys.map fun key => .file (picturePath directory key))).warned
    (keys.map (pictureLine directory))

theorem ends_pictures {body : String × ChartTarget → PUnit → Step (ForInStep PUnit)}
    {directory : String} {scale : Nat}
    (h : ∀ e s t, s.files.saveSvg e.2 (picturePath directory e.1) scale = .ok t →
      Ends (body e ⟨⟩) s (.ok (.yield ⟨⟩)) (s.pictured directory [e.1] t))
    (hs : Saves directory scale t es t') (s : Session) (ht : s.files = t) :
    Ends (forIn es PUnit.unit body) s (.ok ⟨⟩) (s.pictured directory (es.map Prod.fst) t') := by
  induction hs generalizing s with
  | nil =>
    subst ht
    have hnone : s.pictured directory [] s.files = s := by
      simp [Session.pictured, Session.changed, Session.warned]
    rw [List.map_nil, hnone]
    exact ends_pure _ s
  | @cons t t₁ t' e es hsave rest ih =>
    subst ht
    have hall : s.pictured directory ((e :: es).map Prod.fst) t' =
        (s.pictured directory [e.1] t₁).pictured directory (es.map Prod.fst) t' := by
      simp [Session.pictured, Session.changed, Session.warned]
    rw [hall]
    exact (h e s t₁ hsave).forIn_cons (ih _ rfl)

/-- Does the tree `t'` hold the snapshot that is asked for, and is otherwise `t`? -/
def Snapped (o : RenderOptions) (d : Dashboard) (t t' : FileTree) : Prop :=
  match o.snapshot with
  | none => t' = t
  | some path => t.saveSnapshot d path = .ok t'

def Session.wrote (s : Session) (o : RenderOptions) (keys : List String) (t : FileTree) : Session :=
  (s.changed t (.directory o.outDir :: (keys.map fun key => .file (picturePath o.outDir key)) ++
    o.snapshot.toList.map .file)).warned
      (keys.map (pictureLine o.outDir) ++ o.snapshot.toList.map snapshotLine)

theorem ends_writeRendering (hdirs : s.files.makeDirectories o.outDir = .ok dirs)
    (hs : Saves o.outDir o.scale dirs r.visible t) (ht : Snapped o r.dashboard t t') :
    Ends (writeRendering o r) s (.ok ()) (s.wrote o (r.visible.map Prod.fst) t') := by
  have hone (e : String × ChartTarget) (s : Session) (t : FileTree)
      (h : s.files.saveSvg e.2 (picturePath o.outDir e.1) o.scale = .ok t) :
      Ends (do
        let path := Path.join o.outDir s!"{e.1}.svg"
        save path (·.saveSvg e.2 path o.scale)
        warn s!"Wrote chart to {path}"
        pure (ForInStep.yield PUnit.unit)) s (.ok (.yield ⟨⟩)) (s.pictured o.outDir [e.1] t) :=
    .bind (ends_save h) (.bind (ends_warn _ _) (ends_pure _ _))
  unfold writeRendering
  refine .bind (ends_makeDirectory hdirs) ?_
  refine .bind (ends_pictures hone hs _ rfl) ?_
  have hwrote (snapshot : List String) (t' : FileTree) :
      (((s.changed dirs [.directory o.outDir]).pictured o.outDir (r.visible.map Prod.fst) t).changed
        t' (snapshot.map .file)).warned (snapshot.map snapshotLine) =
      (s.changed t' (.directory o.outDir :: ((r.visible.map Prod.fst).map fun key =>
        .file (picturePath o.outDir key)) ++ snapshot.map .file)).warned
          ((r.visible.map Prod.fst).map (pictureLine o.outDir) ++ snapshot.map snapshotLine) := by
    simp [Session.pictured, Session.changed, Session.warned]
  unfold Session.wrote
  rw [← hwrote]
  unfold Snapped at ht
  cases ho : o.snapshot with
  | none =>
    simp only [ho] at ht
    subst ht
    have hnone (s : Session) : (s.changed s.files []).warned [] = s := by
      simp [Session.changed, Session.warned]
    exact (hnone _).symm ▸ ends_pure _ _
  | some path =>
    simp only [ho] at ht
    exact .bind (ends_save ht) (ends_warn _ _)

/-! ## The whole command -/

theorem Ends.render {result : Except Failure Unit} {s' : Session} (hc : match o.config with
      | none => config = .default
      | some path => s.files.loadConfig path = .ok config)
    (hdata : s.files.loadChartData o.input = .ok data)
    (hr : (Rendering.ofData config data o.refresh).result = .ok r)
    (h : Ends (if r.isEmpty then fail s!"no chart could be drawn from {o.input}"
      else writeRendering o r) (s.warned (r.skipped.map skippedLine)) result s') :
    Ends (render o) s result s' := by
  unfold Command.render
  refine .bind (ends_get s) (.bind (ends_settings hc s) ?_)
  refine .bind (ends_loaded hdata s) (.bind (ends_worked hr s) ?_)
  exact .bind (ends_forIn_warn (fun (_, _) s => .bind (ends_warn _ s) (ends_pure _ _)) _ _) h

/-! ## The report -/

theorem report_of_ok {step : Step Unit} (h : Ends step ⟨files, #[], #[], #[]⟩ (.ok ()) s) :
    Report.ofStep step files = ⟨0, lines s.out, lines s.err, s.changes.toList, s.files⟩ := by
  unfold Report.ofStep
  rw [show step.run.run ⟨files, #[], #[], #[]⟩ = _ from h]

theorem report_of_error {step : Step Unit} {message : String}
    (h : Ends step ⟨files, #[], #[], #[]⟩ (.error (.error message)) s) :
    Report.ofStep step files =
      ⟨1, lines s.out, lines (s.err.push ("Error: " ++ message)), s.changes.toList, s.files⟩ := by
  unfold Report.ofStep
  rw [show step.run.run ⟨files, #[], #[], #[]⟩ = _ from h]

/-! ## The pictures -/

/-- Does the tree hold the pictures of the charts that are to be pictured, and is otherwise the tree
before? -/
structure HoldsPictures (o : RenderOptions) (data : ChartData) (before t : FileTree) : Prop where
  pictures : ∀ key values, Pictured data o.refresh key values →
    ∃ svg, PictureOf data.labels values o.scale svg ∧
      t.read (picturePath o.outDir key) = .ok (Utf8.encode svg)
  rest : ∀ location, (∀ key values, Pictured data o.refresh key values →
    ¬before.LeadsTo (picturePath o.outDir key) location) → t.at? location = before.at? location

theorem isName_of_pictured {refresh : Bool} {key : String} {values : List Float}
    (h : Pictured data refresh key values) : Path.IsName s!"{key}.svg" := by
  have hkey : key = employeeKey ∨ key = sshKey ∨ key = signsKey := by
    cases h with
    | sample => exact .inl rfl
    | @own x hx =>
      have hmem : x.1 ∈ [employeeKey, sshKey, signsKey] := List.mem_map_of_mem (f := Prod.fst) hx
      simpa using hmem
  rcases hkey with rfl | rfl | rfl <;> constructor <;> decide

/-- The visible charts of a rendering are saved as the pictures that are wanted. -/
theorem exists_holdsPictures (hscale : o.scale ≤ 64) (hr : r.Of data o.refresh)
    (hsome : ∃ x ∈ data.draws, Drawable data.labels x.2)
    (hplaces : ∀ key values, Pictured data o.refresh key values →
      ∃ location, dirs.LeadsTo (picturePath o.outDir key) location) :
    ∃ t, Saves o.outDir o.scale dirs r.visible t ∧ HoldsPictures o data dirs t := by
  have hl : ∀ e ∈ r.visible, ∃ location, dirs.LeadsTo (picturePath o.outDir e.1) location := by
    intro e he
    obtain ⟨values, hpictured, -⟩ := hr.shown e he
    exact hplaces e.1 values hpictured
  obtain ⟨t, hsaves⟩ := FileTree.exists_saves hscale hl
  refine ⟨t, hsaves, fun key values hpictured => ?_, fun location hnone => hsaves.rest ?_⟩
  · obtain ⟨target, he, hof⟩ := hr.all hsome key values hpictured
    have hnames : ∀ e ∈ r.visible, Path.IsName s!"{e.1}.svg" := by
      intro e he
      obtain ⟨values, hpictured, -⟩ := hr.shown e he
      exact isName_of_pictured hpictured
    obtain ⟨svg, hsvg, hread⟩ := hsaves.read hr.nodup hnames hl (key, target) he
    exact ⟨svg, ⟨target, hof, hsvg⟩, hread⟩
  · intro e he
    obtain ⟨values, hpictured, -⟩ := hr.shown e he
    obtain ⟨place, hplace⟩ := hl e he
    refine ⟨place, hplace, ?_⟩
    rintro rfl
    exact hnone e.1 values hpictured hplace

/-- A snapshot that is asked for can be written where its path leads, the pictures being there. -/
theorem exists_snapped (d : Dashboard) (hs : ∀ path ∈ o.snapshot, ∃ place, t.LeadsTo path place) :
    ∃ t', Snapped o d t t' := by
  unfold Snapped
  cases ho : o.snapshot with
  | none => exact ⟨t, rfl⟩
  | some path =>
    obtain ⟨place, hplace⟩ := hs path ho
    refine ⟨t.put place (.file (Utf8.encode d.snapshot.pretty)), ?_⟩
    unfold FileTree.saveSnapshot FileTree.saveText
    simp only [FileTree.write_eq_ok_iff.2 ⟨place, hplace, rfl⟩]

/-- Does the snapshot, if there is to be one, stand elsewhere than at the path? -/
def Spares (o : RenderOptions) (t : FileTree) (path : String) : Prop :=
  ∀ snapshot ∈ o.snapshot, ∀ location, t.LeadsTo snapshot location → ¬t.LeadsTo path location

theorem Snapped.read {d : Dashboard} {path : String} {place : Location} (h : Snapped o d t t')
    (hl : t.LeadsTo path place)
    (helse : ∀ snapshot ∈ o.snapshot, ∃ other, t.LeadsTo snapshot other ∧ other ≠ place) :
    t'.read path = t.read path := by
  unfold Snapped at h
  cases ho : o.snapshot with
  | none =>
    simp only [ho] at h
    rw [h]
  | some snapshot =>
    simp only [ho] at h
    unfold FileTree.saveSnapshot FileTree.saveText at h
    split at h
    · next t₁ hwrite =>
      cases h
      obtain ⟨location, hsnapshot, rfl⟩ := FileTree.write_eq_ok_iff.1 hwrite
      obtain ⟨other, hother, hne⟩ := helse snapshot ho
      obtain rfl := hsnapshot.unique hother
      exact hl.read_put hsnapshot.free hne.symm _
    · cases h

/-- Rendering from end to end.  The charts that cannot be drawn from the data are skipped, each with
a line, in the order employees, connections, signatures.  If no chart can be drawn, that is the
error, and no file or directory is touched.  Otherwise, as long as the files can be written, exactly
the charts that are to be pictured are written to the directory, once each, and each file holds the
picture, at the scale that is asked for, of the labels with the values that the chart is to show,
unless the snapshot is written over it.  With the second draw the employees show the sample,
whatever their own values are. -/
theorem render_pictures_drawable (hscale : o.scale ≤ 64)
    (hconfig : match o.config with
      | none => config = .default
      | some path => files.loadConfig path = .ok config)
    (hdata : files.loadChartData o.input = .ok data) :
    ∃ skipped, LeftOut data.labels data.draws skipped ∧
      ((∀ x ∈ data.draws, ¬Drawable data.labels x.2) →
        Report.ofStep (render o) files =
          ⟨1, "", lines (skipped.map skippedLine ++
            [s!"Error: no chart could be drawn from {o.input}"]).toArray, [], files⟩) ∧
      ((∃ x ∈ data.draws, Drawable data.labels x.2) →
        ∀ dirs, files.makeDirectories o.outDir = .ok dirs →
          (∀ key values, Pictured data o.refresh key values →
            ∃ location, dirs.LeadsTo (picturePath o.outDir key) location) →
          (∀ path ∈ o.snapshot, ∃ location, dirs.LeadsTo path location) →
          ∃ (keys : List String) (d : Dashboard) (pictured after : FileTree),
            keys.Nodup ∧ (∀ key, key ∈ keys ↔ ∃ values, Pictured data o.refresh key values) ∧
            (Rendering.ofData config data o.refresh).result = .ok ⟨skipped, d⟩ ∧
            HoldsPictures o data dirs pictured ∧ Snapped o d pictured after ∧
            (∀ key values, Pictured data o.refresh key values →
              Spares o dirs (picturePath o.outDir key) →
              ∃ svg, PictureOf data.labels values o.scale svg ∧
                after.read (picturePath o.outDir key) = .ok (Utf8.encode svg)) ∧
            Report.ofStep (render o) files =
              ⟨0, "", lines (skipped.map skippedLine ++ (keys.map (pictureLine o.outDir) ++
                  o.snapshot.toList.map snapshotLine)).toArray,
                .directory o.outDir :: (keys.map fun key => .file (picturePath o.outDir key)) ++
                  o.snapshot.toList.map .file, after⟩) := by
  obtain ⟨r, hrun, hr⟩ := Dashboard.exists_rendering config data o.refresh
  let start : Session := ⟨files, #[], #[], #[]⟩
  refine ⟨r.skipped, hr.skips, fun hnone => ?_, fun hsome dirs hdirs hplaces hsnapshot => ?_⟩
  · have hends : Ends (render o) start
        (.error (.error s!"no chart could be drawn from {o.input}"))
          (start.warned (r.skipped.map skippedLine)) := by
      refine .render hconfig hdata hrun ?_
      rw [if_pos (hr.isEmpty_iff.2 hnone)]
      exact ends_fail _ _
    have hline : "Error: " ++ s!"no chart could be drawn from {o.input}" =
        s!"Error: no chart could be drawn from {o.input}" := by
      simp only [toString, ← String.append_assoc]
      rfl
    rw [report_of_error hends, hline]
    simp only [start, Session.warned, Array.empty_append, List.push_toArray]
    rfl
  · have hfull : ¬r.isEmpty = true := by
      rw [hr.isEmpty_iff]
      simpa using hsome
    obtain ⟨pictured, hsaves, hholds⟩ := exists_holdsPictures hscale hr hsome hplaces
    obtain ⟨after, hsnapped⟩ : ∃ t', Snapped o r.dashboard pictured t' := by
      refine exists_snapped _ fun path hpath => ?_
      obtain ⟨place, hplace⟩ := hsnapshot path hpath
      exact ⟨place, hsaves.leadsTo hplace⟩
    have hends : Ends (render o) start (.ok ())
        ((start.warned (r.skipped.map skippedLine)).wrote o (r.visible.map Prod.fst) after) := by
      refine .render hconfig hdata hrun ?_
      rw [if_neg hfull]
      exact ends_writeRendering hdirs hsaves hsnapped
    refine ⟨r.visible.map Prod.fst, r.dashboard, pictured, after, hr.nodup, fun key => ?_, hrun,
      hholds, hsnapped, fun key values hpictured hspares => ?_, ?_⟩
    · constructor
      · intro hkey
        obtain ⟨e, he, rfl⟩ := List.mem_map.1 hkey
        obtain ⟨values, hpictured, -⟩ := hr.shown e he
        exact ⟨values, hpictured⟩
      · intro hex
        obtain ⟨values, hpictured⟩ := hex
        obtain ⟨target, he, -⟩ := hr.all hsome key values hpictured
        exact List.mem_map.2 ⟨(key, target), he, rfl⟩
    · obtain ⟨svg, hpicture, hread⟩ := hholds.pictures key values hpictured
      obtain ⟨place, hplace⟩ := hplaces key values hpictured
      refine ⟨svg, hpicture, ?_⟩
      rw [hsnapped.read (hsaves.leadsTo hplace) fun path hpath => ?_, hread]
      obtain ⟨other, hother⟩ := hsnapshot path hpath
      refine ⟨other, hsaves.leadsTo hother, ?_⟩
      rintro rfl
      exact hspares path hpath _ hother hplace
    · rw [report_of_ok hends]
      simp [start, Session.warned, Session.changed, Session.wrote]
      rfl

/-- Data of which only the connections can be drawn. -/
def lopsided : FileTree := FileTree.empty.add "in.csv" (.file (Utf8.encode
  "label,employee,ssh,signs\na,-1,0,0\nb,0,1,0\nc,0,1,0\nd,0,1,-2\n"))

/-- Pictures of them, with the second draw. -/
def lopsidedPictures : RenderOptions where
  input := "in.csv"
  outDir := "out"
  config := none
  scale := 2
  refresh := true
  snapshot := some "out/snapshot.json"

/-- The employees are skipped and yet pictured, with the sample; the signatures are not. -/
theorem render_lopsided :
    ∃ svg : String,
      (Report.ofStep (render lopsidedPictures) lopsided).code = 0 ∧
      FileChange.file "out/employee.svg" ∈
        (Report.ofStep (render lopsidedPictures) lopsided).changes ∧
      FileChange.file "out/signs.svg" ∉
        (Report.ofStep (render lopsidedPictures) lopsided).changes ∧
      PictureOf ["a", "b", "c", "d"] [0.0, 2.0, 2.0, 6.0] 2 svg ∧
      (Report.ofStep (render lopsidedPictures) lopsided).files.read "out/employee.svg" =
        .ok (Utf8.encode svg) := by
  have hdata : lopsided.loadChartData "in.csv" = .ok ⟨["a", "b", "c", "d"],
      [-1.0, 0.0, 0.0, 0.0], [0.0, 1.0, 1.0, 1.0], [0.0, 0.0, 0.0, -2.0]⟩ := by decide +kernel
  have hdirs : lopsided.makeDirectories "out" =
      .ok (lopsided.put ⟨.working 0, ["out"]⟩ .directory) := by decide +kernel
  have hplace (path : String)
      (h : (lopsided.put ⟨.working 0, ["out"]⟩ .directory).write path [] =
        .ok ((lopsided.put ⟨.working 0, ["out"]⟩ .directory).put (Path.location path) (.file []))) :
      ∃ place, (lopsided.put ⟨.working 0, ["out"]⟩ .directory).LeadsTo path place := by
    obtain ⟨place, hplace, -⟩ := FileTree.write_eq_ok_iff.1 h
    exact ⟨place, hplace⟩
  have hpictured (key : String) (values : List Float)
      (h : Pictured ⟨["a", "b", "c", "d"], [-1.0, 0.0, 0.0, 0.0], [0.0, 1.0, 1.0, 1.0],
        [0.0, 0.0, 0.0, -2.0]⟩ true key values) : key = employeeKey ∨ key = sshKey := by
    cases h with
    | sample => exact .inl rfl
    | @own x hx hd hk =>
      simp only [ChartData.draws, List.mem_cons, List.not_mem_nil, or_false] at hx
      rcases hx with rfl | rfl | rfl
      · exact absurd rfl (hk rfl)
      · exact .inr rfl
      · exact absurd hd (by decide +kernel)
  obtain ⟨skipped, -, -, hwrites⟩ :=
    render_pictures_drawable (o := lopsidedPictures) (by decide) rfl hdata
  obtain ⟨keys, d, pictured, after, -, hkeys, -, -, -, hafter, hreport⟩ :=
    hwrites ⟨(sshKey, [0.0, 1.0, 1.0, 1.0]), .tail _ (.head _), by decide +kernel⟩ _ hdirs
      (fun key values h => by
        rcases hpictured key values h with rfl | rfl <;> exact hplace _ (by decide +kernel))
      (fun path hpath => by
        cases hpath
        exact hplace _ (by decide +kernel))
  have hspares : Spares lopsidedPictures (lopsided.put ⟨.working 0, ["out"]⟩ .directory)
      (picturePath "out" employeeKey) := by
    intro snapshot hsnapshot location hl hl'
    cases hsnapshot
    change FileTree.LeadsTo _ (Path.join "out" "snapshot.json") location at hl
    have hname : Path.IsName "snapshot.json" := by constructor <;> decide
    have hname' : Path.IsName s!"{employeeKey}.svg" := by constructor <;> decide
    exact hl.ne_of_join hname hname' (by decide) hl' rfl
  obtain ⟨svg, hpicture, hread⟩ := hafter employeeKey refreshSample (.sample rfl) hspares
  refine ⟨svg, by rw [hreport], ?_, ?_, hpicture, by rw [hreport]; exact hread⟩
  · rw [hreport]
    have hmem : employeeKey ∈ keys := (hkeys employeeKey).2 ⟨_, .sample rfl⟩
    exact List.mem_append_left _ (List.mem_cons_of_mem _ (List.mem_map.2 ⟨_, hmem, by decide⟩))
  · rw [hreport]
    intro hmem
    rcases List.mem_append.1 hmem with hmem | hmem
    · rcases List.mem_cons.1 hmem with hmem | hmem
      · cases hmem
      · obtain ⟨key, hkey, heq⟩ := List.mem_map.1 hmem
        obtain ⟨values, h⟩ := (hkeys key).1 hkey
        rcases hpictured key values h with rfl | rfl <;> exact absurd heq (by decide)
    · exact absurd hmem (by decide)

end Sparkboard.Command
