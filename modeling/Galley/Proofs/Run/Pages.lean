import Galley.Proofs.File.Room
import Galley.Proofs.Image.Golden
import Galley.Proofs.Image.Rendering
import Galley.Proofs.Run.Passing

/-!
# Pages and their reference

What a check of pages does in front of the judgement depends on the pages and the
files only.  If it succeeds for all pages of a file, it also does so for some of
them, and finds the same reference, unless the reference lies where the fresh
picture goes.
-/

namespace Galley.Run

open Compile File Check Image

/-! ## What there is to be judged -/

/-- Draws some pages, saves the picture and reads a reference for it. -/
def draw (outputs : Outputs) (frames : List Document.Frame) : Disk (Picture × Option Picture) := do
  let picture ← MonadExcept.ofExcept (renderPages frames)
  savePicture picture outputs.png
  return (picture, ← readPicture outputs.ref)

/-- Everything that a check of pages does on disk in front of the judgement. -/
def present (outputs : Outputs) (frames : List Document.Frame) :
    Disk (Picture × Option Picture) := do
  outputs.pdf.forM fun pdf => exportDocument frames pdf
  draw outputs frames

/-- Puts a picture in the place of a reference. -/
def replaceReference (picture : Picture) (ref : Path) : Disk Unit := do
  Disk.makeRoom ref
  Disk.save ref (.picture (← openPicture picture))

/-- Judges a picture, and acts on the verdict. -/
def conclude (update : Bool) (frames : List Document.Frame) (ref : Path) (picture : Picture)
    (reference : Option Picture) : Check Unit := do
  let verdict := judge picture reference update (!frames.isEmpty)
  if verdict.isUpdate then onDisk (replaceReference picture ref)
  settle verdict

/-- Reports that are as good as each other, whatever they show. -/
structure Report.Like (report report' : Report) : Prop where
  ok : report'.ok = report.ok
  updated : report'.updated = report.updated

def Progress.after (progress : Progress) (files : Tree) (report : Report) : Progress :=
  { progress with bench := { progress.bench with files }, report }

variable {setup : Setup} {path : Path} {outputs : Outputs} {frames : List Document.Frame}
  {progress : Progress}

theorem onDisk_apply {α : Type} (step : Disk α) (progress : Progress) :
    onDisk step progress = ((step progress.bench.files).1,
      progress.after (step progress.bench.files).2 progress.report) :=
  rfl

theorem exists_showFrames (setup : Setup) (frames : List Document.Frame) (progress : Progress) :
    ∃ report, progress.report.Like report ∧
      showFrames setup frames progress = (.ok (), { progress with report }) := by
  rw [showFrames]
  split
  · induction frames generalizing progress with
    | nil => exact ⟨_, ⟨rfl, rfl⟩, rfl⟩
    | cons frame frames ih =>
      obtain ⟨report, hlike, hshown⟩ :=
        ih { progress with report := progress.report.add (.frame frame) }
      exact ⟨report, ⟨hlike.ok, hlike.updated⟩, hshown⟩
  · exact ⟨_, ⟨rfl, rfl⟩, rfl⟩

theorem onDisk_bind {α β : Type} (step : Disk α) (next : α → Disk β) :
    onDisk (step >>= next) = onDisk step >>= fun value => onDisk (next value) := by
  funext progress
  rw [bind_apply, onDisk_apply, onDisk_apply, Disk.bind_apply]
  rcases step progress.bench.files with ⟨failure | value, files⟩ <;> rfl

theorem onDisk_forM {α : Type} (step : α → Disk PUnit) (item : Option α) :
    (item.forM fun item => onDisk (step item)) = onDisk (item.forM step) := by
  cases item <;> rfl

theorem checkReference_eq (picture : Picture) (png ref : Path) (update hasPages : Bool) :
    checkReference picture png ref update hasPages = (do
      savePicture picture png
      let reference ← readPicture ref
      let verdict := judge picture reference update hasPages
      if verdict.isUpdate then replaceReference picture ref
      return verdict) := by
  rw [checkReference]
  simp only [replaceReference, bind_assoc]

theorem onDisk_judged_bind_settle (update : Bool) (frames : List Document.Frame) (ref : Path)
    (picture : Picture) (reference : Option Picture) :
    onDisk (do
        let verdict := judge picture reference update (!frames.isEmpty)
        if verdict.isUpdate then replaceReference picture ref
        return verdict) >>= settle =
      conclude update frames ref picture reference := by
  rw [conclude]
  dsimp only
  split
  · rw [onDisk_bind, bind_assoc]
    rfl
  · rfl

/-- A check of pages exports and shows them, draws them, and comes to a conclusion. -/
theorem checkPages_eq_draw (setup : Setup) (path : Path) (frames : List Document.Frame) :
    checkPages setup path frames = (do
      let outputs ← lift (outputPaths setup path)
      onDisk (outputs.pdf.forM fun pdf => exportDocument frames pdf)
      showFrames setup frames
      let (picture, reference) ← onDisk (draw outputs frames)
      conclude setup.options.update frames outputs.ref picture reference) := by
  have hdraw : ∀ outputs : Outputs, (do
      let picture ← lift (renderPages frames)
      let verdict ← onDisk (checkReference picture outputs.png outputs.ref setup.options.update
        (!frames.isEmpty))
      settle verdict) = (do
      let (picture, reference) ← onDisk (draw outputs frames)
      conclude setup.options.update frames outputs.ref picture reference) := by
    intro outputs
    rw [draw]
    cases renderPages frames with
    | error failure => rfl
    | ok picture =>
      show onDisk (checkReference picture outputs.png outputs.ref setup.options.update
        (!frames.isEmpty)) >>= settle = onDisk (savePicture picture outputs.png >>= fun _ =>
          readPicture outputs.ref >>= fun reference => pure (picture, reference)) >>= _
      simp only [checkReference_eq, onDisk_bind, bind_assoc]
      refine congrArg (_ >>= ·) (funext fun _ => congrArg (_ >>= ·) (funext fun reference => ?_))
      exact onDisk_judged_bind_settle _ _ _ _ _
  rw [checkPages_eq]
  simp only [onDisk_forM, hdraw]

/-- A check of pages is a judgement of what there is to be judged. -/
theorem exists_checkPages (houtputs : outputPaths setup path = .ok outputs)
    (frames : List Document.Frame) (progress : Progress) :
    ∃ report, progress.report.Like report ∧ checkPages setup path frames progress =
      match present outputs frames progress.bench.files with
      | (.ok (picture, reference), files) =>
        conclude setup.options.update frames outputs.ref picture reference
          (progress.after files report)
      | (.error failure, files) => (.error failure, progress.after files report) := by
  rw [checkPages_eq_draw, houtputs]
  change ∃ report, _ ∧ (onDisk (outputs.pdf.forM fun pdf => exportDocument frames pdf) >>= _)
    progress = _
  rw [bind_apply, onDisk_apply, present, Disk.bind_apply]
  rcases (outputs.pdf.forM fun pdf => exportDocument frames pdf) progress.bench.files with
    ⟨failure | _, exported⟩
  · exact ⟨_, ⟨rfl, rfl⟩, rfl⟩
  obtain ⟨report, hlike, hshown⟩ :=
    exists_showFrames setup frames (progress.after exported progress.report)
  refine ⟨report, hlike, ?_⟩
  dsimp only
  rw [bind_apply, hshown]
  dsimp only
  rw [bind_apply, onDisk_apply]
  dsimp only [Progress.after]
  rcases draw outputs frames exported with ⟨failure | ⟨picture, reference⟩, drawn⟩ <;> rfl

/-! ## Conclusions -/

/-- Nobody has to complain about a picture. -/
def Recognized (frames : List Document.Frame) (picture : Picture) (reference : Option Picture) :
    Prop :=
  judge picture reference false (!frames.isEmpty) = .accepted

variable {picture : Picture} {reference : Option Picture}

theorem recognized_some_iff {found : Picture} :
    Recognized frames picture (some found) ↔ picture.resembles found = true := by
  rw [Recognized, judge]
  cases picture.resembles found <;> decide

theorem recognized_none_iff : Recognized frames picture none ↔ frames = [] := by
  rw [Recognized, judge]
  cases frames <;> simp

theorem recognized_iff :
    Recognized frames picture reference ↔ ¬ Outdated picture reference (!frames.isEmpty) := by
  refine ⟨fun hrecognized houtdated => ?_, fun houtdated => judge_of_not_outdated houtdated false⟩
  obtain ⟨-, complaint, hjudge⟩ := judge_of_outdated houtdated
  cases hjudge.symm.trans hrecognized

theorem judge_of_recognized (hrecognized : Recognized frames picture reference) (update : Bool) :
    judge picture reference update (!frames.isEmpty) = .accepted :=
  judge_of_not_outdated (recognized_iff.1 hrecognized) update

theorem judge_of_not_recognized (hrecognized : ¬ Recognized frames picture reference) :
    judge picture reference true (!frames.isEmpty) = .updated ∧
      ∃ complaint, judge picture reference false (!frames.isEmpty) = .rejected complaint :=
  judge_of_outdated (not_not.1 (mt recognized_iff.2 hrecognized))

theorem conclude_of_recognized (hrecognized : Recognized frames picture reference) (update : Bool)
    (ref : Path) (progress : Progress) :
    conclude update frames ref picture reference progress = (.ok (), progress) := by
  rw [conclude, judge_of_recognized hrecognized]
  rfl

theorem bad_conclude (hrecognized : ¬ Recognized frames picture reference) (ref : Path)
    (progress : Progress) : (conclude false frames ref picture reference progress).2.Bad := by
  obtain ⟨-, complaint, hjudge⟩ := judge_of_not_recognized hrecognized
  rw [conclude, hjudge]
  rfl

/-- A picture that is not recognized becomes the reference if that is allowed. -/
theorem conclude_of_not_recognized (hrecognized : ¬ Recognized frames picture reference)
    {ref : Path} {files : Tree}
    (hreplace : replaceReference picture ref progress.bench.files = (.ok (), files)) :
    conclude true frames ref picture reference progress =
      (.ok (), progress.after files { progress.report with updated := true }) := by
  rw [conclude, (judge_of_not_recognized hrecognized).1]
  change (onDisk (replaceReference picture ref) >>= fun _ => settle .updated) progress = _
  rw [bind_apply, onDisk_apply, hreplace]
  rfl

/-! ## What succeeds on disk -/

/-- Makes room for a file and saves it there. -/
def put (path : Path) (content : Content) : Disk Unit := do
  Disk.makeRoom path
  Disk.save path content

theorem exists_put {same : Content → Content → Prop} {content content' : Content} {path : Path}
    {files files' after : Tree} (hsame : same content content') (halike : files.Alike same files')
    (hput : put path content files = (.ok (), after)) :
    ∃ after', put path content' files' = (.ok (), after') ∧ after.Alike same after' := by
  have hlevel : Disk.Level same (put path content) (put path content') :=
    .bind (.makeDirectory _ _) fun _ => .save path hsame
  obtain ⟨hresult, hafter⟩ := hlevel files files' halike
  rw [hput] at hresult hafter
  exact ⟨(put path content' files').2, Prod.ext hresult rfl, hafter⟩

theorem savePicture_eq_ok_iff {path : Path} {files after : Tree} :
    savePicture picture path files = (.ok (), after) ↔
      picture.raster.width * picture.raster.height ≠ 0 ∧
        put path (.picture picture) files = (.ok (), after) := by
  rw [savePicture, put, Disk.bind_apply, Disk.bind_apply]
  rcases Disk.makeRoom path files with ⟨failure | _, before⟩
  · exact ⟨nofun, nofun⟩
  change (Disk.save path (.picture picture) >>= fun _ => _) before = _ ↔
    _ ∧ Disk.save path (.picture picture) before = _
  rw [Disk.bind_apply]
  rcases Disk.save path (.picture picture) before with ⟨failure | _, saved⟩
  · exact ⟨nofun, nofun⟩
  dsimp only
  split
  · rename_i hempty
    exact ⟨nofun, fun hrun => absurd hempty hrun.1⟩
  · rename_i hpixels
    exact ⟨fun hrun => ⟨hpixels, hrun⟩, fun hrun => hrun.2⟩

theorem exportDocument_eq_ok_iff {path : Path} {files after : Tree} :
    exportDocument frames path files = (.ok (), after) ↔
      ∃ pages, frames.mapM (renderPlain 0) = .ok pages ∧
        (pages.any fun page => printLimit < max page.raster.width page.raster.height) = false ∧
        put path (.document (if pages.isEmpty then [blankPage] else pages)) files =
          (.ok (), after) := by
  rw [exportDocument, Disk.bind_apply]
  simp only [put, Disk.bind_apply]
  rcases Disk.makeRoom path files with ⟨failure | _, before⟩
  · exact ⟨nofun, nofun⟩
  cases frames.mapM (renderPlain 0) with
  | error failure => exact ⟨nofun, nofun⟩
  | ok pages =>
    simp only [Except.ok.injEq, exists_eq_left']
    change (Disk.save path _ >>= fun _ => _) before = _ ↔ _
    rw [Disk.bind_apply]
    rcases Disk.save path (.document (if pages.isEmpty then [blankPage] else pages)) before with
      ⟨failure | _, saved⟩
    · exact ⟨nofun, nofun⟩
    dsimp only
    split
    · rename_i hlong
      exact ⟨nofun, fun hrun => absurd hlong (Bool.eq_false_iff.1 hrun.1)⟩
    · rename_i hshort
      exact ⟨fun hrun => ⟨Bool.eq_false_iff.2 hshort, hrun⟩, fun hrun => hrun.2⟩

theorem openPicture_apply (picture : Picture) (files : Tree) :
    openPicture picture files =
      if pixelLimit < picture.raster.width * picture.raster.height then
        (.error (.pictureTooLarge (picture.raster.width * picture.raster.height)), files)
      else (.ok picture, files) := by
  rw [openPicture]
  split <;> rfl

theorem readPicture_eq_ok_iff {path : Path} {files after : Tree} :
    readPicture path files = (.ok reference, after) ↔
      path.hasNull = false ∧ pictureOf (files.read path).toOption = reference ∧
        (∀ picture, reference = some picture →
          picture.raster.width * picture.raster.height ≤ pixelLimit) ∧
        after = files := by
  rw [readPicture, Disk.bind_apply, Disk.read?_apply]
  by_cases hnull : path.hasNull = true
  · rw [if_pos hnull]
    exact ⟨nofun, fun hread => absurd hnull (Bool.eq_false_iff.1 hread.1)⟩
  rw [if_neg hnull]
  dsimp only
  cases pictureOf (files.read path).toOption with
  | none =>
    constructor
    · rintro ⟨⟩
      exact ⟨Bool.eq_false_iff.2 hnull, rfl, nofun, rfl⟩
    · rintro ⟨-, rfl, -, rfl⟩
      rfl
  | some picture =>
    dsimp only
    rw [Disk.bind_apply, openPicture_apply]
    by_cases hlarge : pixelLimit < picture.raster.width * picture.raster.height
    · rw [if_pos hlarge]
      refine ⟨nofun, ?_⟩
      rintro ⟨-, rfl, hsmall, -⟩
      exact absurd hlarge (Nat.not_lt.2 (hsmall picture rfl))
    · rw [if_neg hlarge]
      constructor
      · rintro ⟨⟩
        refine ⟨Bool.eq_false_iff.2 hnull, rfl, ?_, rfl⟩
        rintro _ ⟨⟩
        exact Nat.not_lt.1 hlarge
      · rintro ⟨-, rfl, -, rfl⟩
        rfl

theorem present_eq_ok_iff {files shown : Tree} :
    present outputs frames files = (.ok (picture, reference), shown) ↔
      ∃ exported, outputs.pdf.forM (exportDocument frames) files = (.ok (), exported) ∧
        renderPages frames = .ok picture ∧
        savePicture picture outputs.png exported = (.ok (), shown) ∧
        readPicture outputs.ref shown = (.ok reference, shown) := by
  rw [present]
  constructor
  · intro hrun
    obtain ⟨_, exported, hexported, hrun⟩ := Disk.eq_ok_of_bind hrun
    refine ⟨exported, hexported, ?_⟩
    rw [draw] at hrun
    cases hrender : renderPages frames with
    | error failure =>
      rw [hrender] at hrun
      cases hrun
    | ok found =>
      rw [hrender] at hrun
      change (savePicture found outputs.png >>= _) exported = _ at hrun
      obtain ⟨_, saved, hsaved, hrun⟩ := Disk.eq_ok_of_bind hrun
      obtain ⟨read, after, hread, hrun⟩ := Disk.eq_ok_of_bind hrun
      obtain ⟨hvalue, rfl⟩ := Prod.mk.inj hrun
      obtain ⟨rfl, rfl⟩ := Prod.mk.inj (Except.ok.inj hvalue)
      obtain ⟨-, -, -, rfl⟩ := readPicture_eq_ok_iff.1 hread
      exact ⟨rfl, hsaved, hread⟩
  · rintro ⟨exported, hexported, hrender, hsaved, hread⟩
    rw [Disk.bind_apply, hexported, draw, hrender]
    change (savePicture picture outputs.png >>= fun _ => _) exported = _
    rw [Disk.bind_apply, hsaved]
    dsimp only
    rw [Disk.bind_apply, hread]
    rfl

/-! ## Some of the pages -/

/-- What files may hold behind a check of some pages instead of all of them. -/
inductive Exchanged (whole picture : Picture) : Content → Content → Prop
  | refl (content : Content) : Exchanged whole picture content content
  | picture : Exchanged whole picture (.picture whole) (.picture picture)
  | document (pages pages' : List Picture) :
    Exchanged whole picture (.document pages) (.document pages')

variable {all : List Document.Frame} {whole : Picture} {files : Tree}

theorem exists_exportDocument_of_sublist {exported : Tree} {pdf : Path} (picture : Picture)
    (hframes : frames.Sublist all) (hall : exportDocument all pdf files = (.ok (), exported)) :
    ∃ exported', exportDocument frames pdf files = (.ok (), exported') ∧
      exported.Alike (Exchanged whole picture) exported' := by
  obtain ⟨pages, hpages, hshort, hput⟩ := exportDocument_eq_ok_iff.1 hall
  have hself : List.SublistForall₂ (fun frame frame' => ∀ page', renderPlain 0 frame' = .ok page' →
      ∃ page, renderPlain 0 frame = .ok page ∧ page = page') frames all :=
    List.sublistForall₂_iff.2 ⟨_, List.forall₂_same.2 fun _ _ page hpage => ⟨page, hpage, rfl⟩,
      hframes⟩
  obtain ⟨made, hmade, hpart⟩ := exists_mapM_of_sublist hself hpages
  have hfits : (made.any fun page => printLimit < max page.raster.width page.raster.height) =
      false := by
    rw [List.any_eq_false] at hshort ⊢
    exact fun page hpage => hshort page ((sublist_of_sublistForall₂ hpart).subset hpage)
  have hdocument : Exchanged whole picture
      (.document (if pages.isEmpty then [blankPage] else pages))
      (.document (if made.isEmpty then [blankPage] else made)) := .document _ _
  obtain ⟨exported', hput', halike⟩ := exists_put hdocument (.refl .refl files) hput
  exact ⟨exported', exportDocument_eq_ok_iff.2 ⟨made, hmade, hfits, hput'⟩, halike⟩

theorem exists_pictureOf_of_exchanged {content content' : Content}
    (hexchanged : Exchanged whole picture content content') :
    pictureOf (some content') = pictureOf (some content) ∨
      pictureOf (some content) = some whole ∧ pictureOf (some content') = some picture := by
  cases hexchanged with
  | refl => exact .inl rfl
  | picture => exact .inr ⟨rfl, rfl⟩
  | document => exact .inl rfl

/-- Some of the pages that can be judged can be judged alone.  Where the reference is the
picture that has been saved, the other picture is found. -/
theorem exists_present_of_sublist {shown : Tree} (hframes : frames.Sublist all)
    (hall : present outputs all files = (.ok (whole, reference), shown)) :
    ∃ picture reference' shown',
      present outputs frames files = (.ok (picture, reference'), shown') ∧
      picture.raster.width ≤ whole.raster.width ∧
      picture.raster.height ≤ whole.raster.height ∧
      (reference' = reference ∨ reference = some whole ∧ reference' = some picture) := by
  obtain ⟨exported, hexported, hrender, hsaved, hread⟩ := present_eq_ok_iff.1 hall
  obtain ⟨picture, hpicture, hwidth, hheight⟩ := exists_renderPages_of_sublist hframes hrender
  obtain ⟨exported', hexported', halike⟩ : ∃ exported',
      outputs.pdf.forM (exportDocument frames) files = (.ok (), exported') ∧
        exported.Alike (Exchanged whole picture) exported' := by
    cases hpdf : outputs.pdf with
    | none =>
      rw [hpdf] at hexported
      obtain ⟨-, rfl⟩ := Prod.mk.inj hexported
      exact ⟨files, rfl, .refl .refl files⟩
    | some pdf =>
      rw [hpdf] at hexported
      exact exists_exportDocument_of_sublist picture hframes hexported
  obtain ⟨-, hput⟩ := savePicture_eq_ok_iff.1 hsaved
  obtain ⟨shown', hput', hshown⟩ := exists_put .picture halike hput
  have hsaved' := savePicture_eq_ok_iff.2 ⟨pixels_ne_zero_of_renderPages hpicture, hput'⟩
  obtain ⟨hnull, hreference, hopened, -⟩ := readPicture_eq_ok_iff.1 hread
  have hfound : pictureOf (shown'.read outputs.ref).toOption = reference ∨
      reference = some whole ∧ pictureOf (shown'.read outputs.ref).toOption = some picture := by
    rw [← hreference]
    have hmatched := hshown.read outputs.ref
    generalize shown.read outputs.ref = found at hmatched ⊢
    generalize shown'.read outputs.ref = found' at hmatched ⊢
    cases hmatched with
    | failure obstacle => exact .inl rfl
    | value hexchanged => exact exists_pictureOf_of_exchanged hexchanged
  refine ⟨picture, _, shown', present_eq_ok_iff.2 ⟨exported', hexported', hpicture, hsaved',
    readPicture_eq_ok_iff.2 ⟨hnull, rfl, ?_, rfl⟩⟩, hwidth, hheight, hfound⟩
  intro found hpixels
  obtain hsame | ⟨hwhole, hown⟩ := hfound
  · exact hopened found (hsame.symm.trans hpixels)
  · obtain rfl := Option.some.inj (hown.symm.trans hpixels)
    exact (Nat.mul_le_mul hwidth hheight).trans (hopened whole hwhole)

/-! ## A reference that is replaced -/

theorem size_eq_of_resembles {left right : Picture} (hsame : left.resembles right = true) :
    left.raster.width = right.raster.width ∧ left.raster.height = right.raster.height := by
  have hclose := (Bool.and_eq_true_iff.1 hsame).2
  rw [Raster.close, Bool.and_assoc, Bool.and_eq_true, Bool.and_eq_true] at hclose
  exact ⟨beq_iff_eq.1 hclose.1, beq_iff_eq.1 hclose.2.1⟩

/-- A reference that all pages of a file look like can be replaced by the picture of some of
them. -/
theorem replaceReference_of_present {reference' : Option Picture} {shown shown' files' : Tree}
    (hframes : frames.Sublist all)
    (hall : present outputs all files = (.ok (whole, reference), shown))
    (hwhole : Recognized all whole reference)
    (hown : present outputs frames files' = (.ok (picture, reference'), shown'))
    (hwidth : picture.raster.width ≤ whole.raster.width)
    (hheight : picture.raster.height ≤ whole.raster.height)
    (hfound : reference' = reference ∨ reference = some whole ∧ reference' = some picture)
    (hrecognized : ¬ Recognized frames picture reference') :
    replaceReference picture outputs.ref shown' =
      (.ok (), shown'.write outputs.ref (.picture picture)) := by
  obtain ⟨-, -, -, -, hread⟩ := present_eq_ok_iff.1 hall
  obtain ⟨-, -, -, -, hread'⟩ := present_eq_ok_iff.1 hown
  obtain ⟨-, -, hopened, -⟩ := readPicture_eq_ok_iff.1 hread
  obtain ⟨hnull, hthere, -, -⟩ := readPicture_eq_ok_iff.1 hread'
  cases reference with
  | none =>
    obtain rfl := recognized_none_iff.1 hwhole
    obtain rfl := List.sublist_nil.1 hframes
    obtain rfl := hfound.resolve_right nofun
    exact absurd (recognized_none_iff.2 rfl) hrecognized
  | some found =>
    obtain ⟨hwidth', hheight'⟩ := size_eq_of_resembles (recognized_some_iff.1 hwhole)
    have hsmall : ¬ pixelLimit < picture.raster.width * picture.raster.height := by
      have hpixels := hopened found rfl
      rw [← hwidth', ← hheight'] at hpixels
      exact Nat.not_lt.2 ((Nat.mul_le_mul hwidth hheight).trans hpixels)
    obtain ⟨content, hcontent⟩ : ∃ content, shown'.read outputs.ref = .ok content := by
      cases hcontent : shown'.read outputs.ref with
      | ok content => exact ⟨content, rfl⟩
      | error obstacle =>
        rw [hcontent] at hthere
        obtain rfl | ⟨-, rfl⟩ := hfound <;> cases hthere
    rw [replaceReference, Disk.bind_apply, Disk.makeRoom_of_read hnull hcontent]
    dsimp only
    rw [Disk.bind_apply, openPicture_apply, if_neg hsmall]
    exact Disk.save_of_read hnull hcontent _

/-! ## Checks that pass -/

/-- Pages that pass look like their reference. -/
theorem Passes.of_checkPages {after : Progress} (hupdate : setup.options.update = false)
    (hpasses : Passes (checkPages setup path frames) progress () after) :
    ∃ outputs picture reference shown, outputPaths setup path = .ok outputs ∧
      present outputs frames progress.bench.files = (.ok (picture, reference), shown) ∧
      Recognized frames picture reference := by
  obtain ⟨outputs, houtputs⟩ : ∃ outputs, outputPaths setup path = .ok outputs := by
    rw [checkPages_eq_draw] at hpasses
    obtain ⟨outputs, _, hlift, -⟩ := hpasses.of_bind
    exact ⟨outputs, (eq_ok_of_lift hlift).1⟩
  obtain ⟨report, -, hcheck⟩ := exists_checkPages houtputs frames progress
  rw [Passes, hcheck, hupdate] at hpasses
  cases hpresent : present outputs frames progress.bench.files with
  | mk result shown =>
    rw [hpresent] at hpasses
    obtain failure | ⟨picture, reference⟩ := result
    · cases hpasses.1
    refine ⟨outputs, picture, reference, shown, houtputs, hpresent, not_not.1 fun hother => ?_⟩
    obtain ⟨hrun, hgood⟩ := hpasses
    have hbad := bad_conclude hother outputs.ref (progress.after shown report)
    dsimp only at hrun
    rw [hrun] at hbad
    exact hgood hbad

end Galley.Run
