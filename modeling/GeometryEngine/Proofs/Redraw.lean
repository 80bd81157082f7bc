import GeometryEngine.Passes
import GeometryEngine.Proofs.Access

/-!
# Drawing a frame again

A frame that is drawn as a whole looks as if it had never been drawn before, whatever was
drawn of it until then (`Session.Holds.render_run`).

What a pass alters of a frame are the bounds of its triangles, and these are what a new pass
does not read: it takes them back to the top. So the frame at rest (`Slot.still`) is all that
a pass depends on (`Slot.render_eq_of_still`), and all that drawing keeps
(`Session.Holds.still_run`). The buckets of the pass before do not matter either, since they
are emptied (`Slot.beginPass?_eq`).
-/

namespace GeometryEngine

namespace Slot

variable {s s' : Slot}

/-! ### What a pass depends on -/

theorem restart_still (s : Slot) : s.still.restart = s.restart := by
  rw [restart, restart, still, Array.map_map]
  rfl

theorem restart_eq_of_still (h : s'.still = s.still) : s'.restart = s.restart := by
  rw [← restart_still s', h, restart_still]

/-- A pass of its own does not depend on the bounds that an earlier one has moved. -/
theorem render_eq_of_still (h : s'.still = s.still) (config : RenderConfig) (c : Cursor)
    (canvas : Canvas) : s'.render config c canvas = s.render config c canvas := by
  rw [render, render, buckets_eq_of_still h, restart_eq_of_still h]

/-! ### Buckets that are used again -/

/-- While the triangles go back to the top, they get into the buckets one after another. -/
theorem restartFrom?_eq (s : Slot) (n : Nat) (b : WordBuckets) (ts : List Triangle) :
    s.restartFrom? n b ts =
      ((ts.zipIdx n).foldlM (fun b p => s.enter? p.1 p.2 b) b).map
        fun b => (b, ts.map Triangle.restart) := by
  induction ts generalizing n b with
  | nil => rfl
  | cons t ts ih =>
    simp only [restartFrom?, List.zipIdx_cons, List.foldlM_cons, ih, Option.bind_eq_bind]
    cases s.enter? t n b with
    | none => rfl
    | some b =>
      simp only [Option.bind_some]
      cases (ts.zipIdx (n + 1)).foldlM (fun b p => s.enter? p.1 p.2 b) b <;> rfl

/-- What an earlier pass has left in the buckets does not matter. -/
theorem beginPass?_eq {old : WordBuckets} (size : old.size = screenHeight) (s : Slot) :
    s.beginPass? old = s.buckets?.map fun b => (b, s.restart) := by
  have emptied : old.map (fun _ => ([] : List UInt16)) = Array.replicate screenHeight [] := by
    rw [Array.map_const', size]
  have triangles : (s.triangles.toList.map Triangle.restart).toArray =
      s.triangles.map Triangle.restart := by
    rw [← Array.toList_map]
  have entered : s.triangles.toList.zipIdx.foldlM (fun b p => s.enter? p.1 p.2 b)
      (Array.replicate screenHeight []) = s.buckets? := rfl
  rw [beginPass?, restartFrom?_eq, emptied, entered]
  cases s.buckets? with
  | none => rfl
  | some b => exact congrArg (fun ts => some (b, Slot.mk s.vertices ts)) triangles

/-- With buckets of an earlier pass, a frame that fits is drawn as it is with new ones. -/
theorem renderOver?_eq (fits : s.Fits) {old : WordBuckets} (size : old.size = screenHeight)
    {c : Cursor} {canvas : Canvas} (room : c.HasRoom canvas) (config : RenderConfig) :
    ∃ b, s.renderOver? old config c canvas = some (b, (s.render config c canvas).2) ∧
      b.widen = s.buckets := by
  obtain ⟨b, hb, wide⟩ := buckets?_eq fits
  have serves : b.Serves s.restart.triangles.size :=
    serves (wide.trans (buckets_eq_of_still (still_restart s)).symm)
  refine ⟨b, ?_, wide⟩
  rw [renderOver?, beginPass?_eq size, hb, Option.map_some, Option.bind_eq_bind, Option.bind_some]
  dsimp only
  rw [draw?_eq serves room, wide]
  rfl

end Slot

namespace Session

variable {s : Session}

/-- Drawing leaves the current frame at rest as it is. -/
theorem still_step {a : Action}
    (held : a.isDrawing = true ∨ (s.step a).engine.frames.current = s.engine.frames.current) :
    (s.step a).engine.frames.current.still = s.engine.frames.current.still := by
  obtain drawing | same := held
  · cases a with
    | beginPass =>
      rw [step, Session.mapCurrent, Frames.current_mapCurrent, Slot.still_restart]
    | draw config c y canvas =>
      rw [step, Session.mapCurrent, Frames.current_mapCurrent, Slot.still_draw]
    | _ => cases drawing
  · rw [same]

theorem Holds.still_run {history : List Action} (held : s.Holds history) :
    (s.run history).engine.frames.current.still = s.engine.frames.current.still := by
  induction history generalizing s with
  | nil => rfl
  | cons a as ih => exact (ih held.2).trans (still_step held.1)

/-- A frame that is drawn as a whole comes out with the same picture, the same buckets and the
    same bounds as if it had not been drawn before, however it was drawn until then: in any
    number of passes, complete or cut short, from any lines on, with any cursors and
    configurations, as long as nothing else was done to the frame.

    The buckets are filled with the same numbers, whatever an earlier pass has left in them. -/
theorem Holds.render_run {history : List Action} (held : s.Holds history) (config : RenderConfig)
    (c : Cursor) (canvas : Canvas) :
    let shown := s.engine.frames.current
    let drawn := (s.run history).engine.frames.current
    drawn.render config c canvas = shown.render config c canvas ∧
      (shown.Fits → c.HasRoom canvas → ∀ old : WordBuckets, old.size = screenHeight →
        ∃ b, drawn.renderOver? old config c canvas = some (b, (shown.render config c canvas).2) ∧
          b.widen = shown.buckets) := by
  intro shown drawn
  have still : drawn.still = shown.still := held.still_run
  have same := Slot.render_eq_of_still still config c canvas
  refine ⟨same, fun fits room old size => ?_⟩
  have fits : drawn.Fits := Slot.fits_still_iff.1 (still ▸ Slot.fits_still_iff.2 fits)
  have filled := Slot.renderOver?_eq fits size room config
  rwa [same, Slot.buckets_eq_of_still still] at filled

/-- A frame with a triangle, over which two passes are begun and not finished: one draws some
    lines twice, and then some others with another configuration, one draws the first two lines
    without filling anything. The bounds of the triangle have moved, but the frame is drawn as
    it would have been drawn at first. -/
theorem Holds.render_run_unfinished :
    let s := ({} : Session).run
      [.submit (.vertex 0 1 0 1), .submit (.vertex 0 (-1) 0 1), .submit (.vertex 1 0 0 1),
        .submit (.polygon 0 1 2 0 0), .submit .swapBuffers]
    let lines : Cursor := { width := 4, height := 2 }
    let history : List Action :=
      [.beginPass, .draw {} lines 7 #[], .draw {} lines 7 #[],
        .draw { color := 1 } lines (-1) #[], .submit (.vertex 0 0 0 1), .beginPass,
        .draw { enabled := false } lines 0 #[]]
    let shown := s.engine.frames.current
    let drawn := (s.run history).engine.frames.current
    let c : Cursor := { width := 130, height := 2 }
    let canvas : Canvas := Array.replicate 260 0
    s.Holds history ∧ drawn ≠ shown ∧ drawn.render {} c canvas = shown.render {} c canvas ∧
      (∃ b, drawn.renderOver? (Array.replicate screenHeight [3]) {} c canvas =
          some (b, (shown.render {} c canvas).2) ∧ b.widen = shown.buckets) ∧
      (shown.render {} c canvas).2.2.1.getD 258 0 = RenderConfig.pixel {} := by
  intro s lines history shown drawn c canvas
  have held : s.Holds history :=
    ⟨.inl rfl, .inl rfl, .inl rfl, .inl rfl, .inr (by decide +kernel), .inl rfl, .inl rfl, trivial⟩
  have fits : shown.Fits := (run_fits _).current
  have room : c.HasRoom canvas := by
    unfold Cursor.HasRoom
    decide +kernel
  obtain ⟨same, again⟩ := held.render_run {} c canvas
  exact ⟨held, by decide +kernel, same, again fits room _ Array.size_replicate, by decide +kernel⟩

end Session

end GeometryEngine
