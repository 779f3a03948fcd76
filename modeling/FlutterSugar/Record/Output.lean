import FlutterSugar.Record.Calls
import FlutterSugar.Record.Pdfcreator

/-!
# The output page

`outputPDF.dart` keeps a title and a number of weeks.  Both of its buttons read the
record document and open a page when the answer comes; what they open is taken
from the page's variables as they are then.  An open page runs `Pdfcreator.create`,
which reads the document again, whenever it is drawn, and calls of `updateUser`
are on their way in the meantime.

## Main definitions

* `recordCheck` — whether the tile of `profile.dart` opens the page.
* `Output`, `outputStep` — the page, what it has opened, and what is on its way.
* `exports_titled_iff` — when everything that is exported has a title.
* `pages_print_iff` — when every open page can be printed, at any time.
-/

namespace FlutterSugar
namespace Record
open Lib Std

/-! ## The page -/

/-- `FirebaseService.recordCheck`. -/
def recordCheck (fails : Bool) (db : RecordDoc) : Bool :=
  let check : Except DartError Bool := if fails then .error .firebaseException else .ok db.isSome
  match check with
  | .ok check => check
  | .error _ => false

/-- A page that shows a PDF. -/
inductive PdfPage
  /-- `PreviewPage`. -/
  | preview (week : ℕ)
  /-- `PreviewPage2`, from which the PDF can be shared. -/
  | export (week : ℕ) (name : String)
  deriving DecidableEq, Repr

/-- The `w` that `create` gets. -/
def PdfPage.week : PdfPage → ℕ
  | .preview week => week
  | .export week _ => week

/-- The `s` that `create` gets. -/
def PdfPage.name : PdfPage → String
  | .preview _ => "preview"
  | .export _ name => name

/-- The document, the variables of the page, and the pages above it. -/
structure Output where
  db : RecordDoc
  name : String
  outWeek : OutWeek
  opened : List PdfPage

/-- Something that waits for an answer: a button of the page, or a call. -/
inductive Waiting
  | previewButton
  | exportButton
  /-- The page has been opened, or something was thrown. -/
  | done
  | call (r : Recording)

/-- What a button opens when its read is answered. -/
def Output.push (x : Output) (page : PdfPage) : Output := { x with opened := x.opened ++ [page] }

def Waiting.answer (reply : Reply) (x : Output) : Waiting → Option (Output × Waiting)
  | .previewButton =>
    if reply.fails then some (x, .done)
    else match x.db with
      | none => some (x, .done)
      | some data => some (x.push (.preview (week x.outWeek data)), .done)
  | .exportButton =>
    if reply.fails then some (x, .done)
    else match x.db with
      | none => some (x, .done)
      | some data => some (x.push (.export (week x.outWeek data) x.name), .done)
  | .done => none
  | .call r => (r.answer reply x.db).map fun a => ({ x with db := a.1 }, .call a.2)

inductive OutputEvent
  /-- `onChanged` of the title. -/
  | edit (value : String)
  /-- An item of the dropdown button. -/
  | select (s : OutWeek)
  | pressPreview
  | pressExport
  /-- The page on top is left. -/
  | pop
  /-- A value is recorded. -/
  | record (s : Timestamp) (i : ℤ)

/-- Only an uncovered page can be tapped. -/
def outputEvent (e : OutputEvent) (x : Output) : Output × List Waiting :=
  match e with
  | .edit value => (if x.opened = [] then { x with name := value } else x, [])
  | .select s => (if x.opened = [] then { x with outWeek := s } else x, [])
  | .pressPreview => (x, if x.opened = [] then [.previewButton] else [])
  -- An empty title gets a toast.
  | .pressExport => (x, if x.opened = [] ∧ x.name ≠ "" then [.exportButton] else [])
  | .pop => ({ x with opened := x.opened.dropLast }, [])
  | .record s i => (x, [.call (Recording.start s i)])

abbrev OutputRun := Pool Output Waiting

abbrev OutputRun.Act := Pool.Act OutputEvent Reply

def outputStep : OutputRun → OutputRun.Act → Option OutputRun := Pool.step Waiting.answer outputEvent

/-- The tile of `profile.dart`: the page is opened if `recordCheck` finds the
document, and a toast is shown otherwise. -/
def tapOutput (fails : Bool) (db : RecordDoc) : Option OutputRun :=
  if recordCheck fails db then some ⟨⟨db, "", .one, []⟩, []⟩ else none

/-- The tile opens the page only on a document that exists. -/
theorem tapOutput_eq_some {fails : Bool} {db : RecordDoc} {s : OutputRun}
    (h : tapOutput fails db = some s) : (∃ d, db = some d) ∧ s = ⟨⟨db, "", .one, []⟩, []⟩ := by
  rw [tapOutput] at h
  split at h
  next hcheck =>
    refine ⟨?_, (Option.some.inj h).symm⟩
    cases fails with
    | true => cases hcheck
    | false => exact Option.isSome_iff_exists.mp hcheck
  next => cases h

/-! ## Titles -/

/-- Everything that is exported has a title. -/
def Titled (x : OutputRun) : Prop := ∀ w name, .export w name ∈ x.shared.opened → name ≠ ""

/-- No export is answered while the title is empty. -/
def AnsweredWithTitle (x : OutputRun) : OutputRun.Act → Prop
  | .event _ => True
  | .move n reply => x.agents[n]? = some .exportButton → reply.fails = false →
      x.shared.db.isSome → x.shared.name ≠ ""

section
variable {s x y : OutputRun} {fails : Bool} {db : RecordDoc} {acts : List OutputRun.Act}

/-- What an answer can do. -/
inductive Waiting.Answers (reply : Reply) (x : Output) : Waiting → Output → Waiting → Prop
  | preview (data : Document ℤ) (hdb : x.db = some data) (hfails : reply.fails = false) :
    Answers reply x .previewButton (x.push (.preview (week x.outWeek data))) .done
  | export (data : Document ℤ) (hdb : x.db = some data) (hfails : reply.fails = false) :
    Answers reply x .exportButton (x.push (.export (week x.outWeek data) x.name)) .done
  /-- The read has failed, or `data()!` throws. -/
  | thrown (p : Waiting) (h : reply.fails = true ∨ x.db = none) : Answers reply x p x .done
  | call (r r' : Recording) (db' : RecordDoc) (h : r.answer reply x.db = some (db', r')) :
    Answers reply x (.call r) { x with db := db' } (.call r')

theorem waiting_answers {reply : Reply} {x x' : Output} {p p' : Waiting}
    (h : p.answer reply x = some (x', p')) : p.Answers reply x x' p' := by
  cases p with
  | previewButton =>
    cases hfails : reply.fails <;> cases hdb : x.db <;> simp only [Waiting.answer, hfails, hdb] at h <;>
      cases h
    · exact .thrown _ (Or.inr hdb)
    · exact .preview _ hdb hfails
    · exact .thrown _ (Or.inl hfails)
    · exact .thrown _ (Or.inl hfails)
  | exportButton =>
    cases hfails : reply.fails <;> cases hdb : x.db <;> simp only [Waiting.answer, hfails, hdb] at h <;>
      cases h
    · exact .thrown _ (Or.inr hdb)
    · exact .export _ hdb hfails
    · exact .thrown _ (Or.inl hfails)
    · exact .thrown _ (Or.inl hfails)
  | done => cases h
  | call r =>
    obtain ⟨⟨db', r'⟩, ha, hr⟩ := Option.map_eq_some_iff.mp h
    cases hr
    exact .call r r' db' ha

/-- An event opens no page. -/
theorem mem_opened_event {e : OutputEvent} {x : Output} {page : PdfPage}
    (h : page ∈ (outputEvent e x).1.opened) : page ∈ x.opened := by
  cases e with
  | edit value => simp only [outputEvent] at h; split at h <;> exact h
  | select s => simp only [outputEvent] at h; split at h <;> exact h
  | pop => exact (List.dropLast_sublist _).mem h
  | pressPreview | pressExport | record => exact h

theorem titled_step (x : OutputRun) (act : OutputRun.Act) (y : OutputRun) (hx : Titled x)
    (h : outputStep x act = some y) : Titled y ↔ AnsweredWithTitle x act := by
  cases act with
  | event e =>
    rw [outputStep, Pool.step_event, Option.some.injEq] at h
    refine iff_of_true ?_ trivial
    intro w name hmem
    rw [← h] at hmem
    exact hx w name (mem_opened_event hmem)
  | move n reply =>
    obtain ⟨p, x', p', hp, hanswer, rfl⟩ := Pool.step_move_eq_some.mp h
    simp only [Titled, AnsweredWithTitle, hp, Option.some.injEq]
    cases waiting_answers hanswer with
    | preview data hdb hfails =>
      refine iff_of_true ?_ (by simp)
      intro w name hmem
      rcases List.mem_append.mp hmem with hold | hnew
      · exact hx w name hold
      · simp at hnew
    | «export» data hdb hfails =>
      constructor
      · intro hy _ _ _
        exact hy (week x.shared.outWeek data) x.shared.name (by simp [Output.push])
      · intro hname w name hmem
        rcases List.mem_append.mp hmem with hold | hnew
        · exact hx w name hold
        · simp only [List.mem_singleton, PdfPage.export.injEq] at hnew
          rw [hnew.2]
          exact hname rfl hfails (by simp [hdb])
    | thrown p hthrown =>
      refine iff_of_true hx ?_
      intro _ hfails hsome
      rcases hthrown with hthrown | hthrown
      · rw [hthrown] at hfails
        cases hfails
      · rw [hthrown] at hsome
        cases hsome
    | call r r' db' => exact iff_of_true hx (by simp)

/-- **When everything that is exported has a title.**  The title is checked before
the read and used after it, so that an export has none exactly if its read is
answered while the title is empty. -/
theorem exports_titled_iff (htap : tapOutput fails db = some s)
    (hrun : run outputStep s acts = some x) :
    Always outputStep Titled s acts ↔ StepsMeet outputStep AnsweredWithTitle s acts := by
  obtain ⟨-, rfl⟩ := tapOutput_eq_some htap
  exact always_iff_stepsMeet titled_step (by simp [Titled]) hrun

/-- The PDF of two days is exported with a title. -/
def twoDaysExported : List OutputRun.Act :=
  [.event (.edit "a"), .event .pressExport, .move 0 ⟨false, true⟩]

/-- The page on a document with two days. -/
def onTwoDays : OutputRun := ⟨⟨some twoDays, "", .one, []⟩, []⟩

theorem tap_onTwoDays : tapOutput false (some twoDays) = some onTwoDays := rfl

theorem exists_twoDays_run : ∃ x, run outputStep onTwoDays twoDaysExported = some x := by
  have hsome : (run outputStep onTwoDays twoDaysExported).isSome := by decide +kernel
  exact Option.isSome_iff_exists.mp hsome

theorem exports_titled_iff_twoDays :
    Always outputStep Titled onTwoDays twoDaysExported ↔
      StepsMeet outputStep AnsweredWithTitle onTwoDays twoDaysExported := by
  obtain ⟨x, hrun⟩ := exists_twoDays_run
  exact exports_titled_iff tap_onTwoDays hrun

-- The title is emptied before the answer: the page that opens has none.
example : ((run outputStep onTwoDays
    [.event (.edit "a"), .event .pressExport, .event (.edit ""), .move 0 ⟨false, true⟩]).map
      fun x => x.shared.opened) = some [.export 2 ""] := by decide +kernel

/-! ## Printing -/

/-- What the pages need of the document, and of what will be written to it: that
it exists, with keys that can be parsed. -/
def Printable (x : OutputRun) : Prop :=
  Pool.Holds (fun o : Output => ∃ d, o.db = some d ∧ Readable d)
    (fun _ p => ∀ r, p = .call r → r.From (fun k => (keyDay k).isSome) fun _ => True) x

theorem readable_iff_over {d : Document ℤ} :
    Readable d ↔ Over (fun k => (keyDay k).isSome) (fun _ => True) (some d) := by
  constructor
  · intro h k v hv
    exact ⟨h k ((Document.mem_iff_exists d).mpr ⟨v, hv⟩), trivial⟩
  · intro h k hk
    obtain ⟨v, hv⟩ := (Document.mem_iff_exists d).mp hk
    exact (h k v hv).1

theorem exists_of_answer {fails : Bool} {db db' : RecordDoc} {c c' : Call}
    (h : c.Answers fails db db' c') (hdb : ∃ d, db = some d) : ∃ d, db' = some d := by
  cases h with
  | merge s i writes => exact ⟨_, rfl⟩
  | replace s i => exact ⟨_, rfl⟩
  | read | unread | unmerged | thrown => exact hdb

theorem printable_step (x : OutputRun) (act : OutputRun.Act) (y : OutputRun) (hx : Printable x)
    (h : outputStep x act = some y) : Printable y := by
  cases act with
  | event e =>
    rw [outputStep, Pool.step_event, Option.some.injEq] at h
    subst h
    refine Pool.holds_event hx ?_
    intro hdb
    cases e with
    | record s i =>
      refine ⟨hdb, ?_, fun _ => id⟩
      intro p hp r hr
      rw [outputEvent, List.mem_singleton] at hp
      rw [hp, Waiting.call.injEq] at hr
      exact hr ▸ ⟨s.readable, trivial, rfl, rfl⟩
    | edit value =>
      refine ⟨?_, by simp [outputEvent], fun _ => id⟩
      simp only [outputEvent]
      split <;> exact hdb
    | select s =>
      refine ⟨?_, by simp [outputEvent], fun _ => id⟩
      simp only [outputEvent]
      split <;> exact hdb
    | pressPreview =>
      refine ⟨hdb, ?_, fun _ => id⟩
      intro p hp r hr
      simp only [outputEvent] at hp
      split at hp <;> simp_all
    | pressExport =>
      refine ⟨hdb, ?_, fun _ => id⟩
      intro p hp r hr
      simp only [outputEvent] at hp
      split at hp <;> simp_all
    | pop => exact ⟨hdb, by simp [outputEvent], fun _ => id⟩
  | move n reply =>
    obtain ⟨p, x', p', hp, hanswer, rfl⟩ := Pool.step_move_eq_some.mp h
    refine Pool.holds_move hx hp ?_
    intro hdb hfrom
    cases waiting_answers hanswer with
    | preview | «export» | thrown => exact ⟨hdb, by simp, fun _ => id⟩
    | call r r' db' hr =>
      obtain ⟨d, hd, hread⟩ := hdb
      have hover := readable_iff_over.mp hread
      rw [← hd] at hover
      obtain ⟨hover', hfrom'⟩ := keeps_over hr hover (hfrom r rfl)
      obtain ⟨d', rfl⟩ := exists_of_answer (answer_eq_some hr).1 ⟨d, hd⟩
      refine ⟨⟨d', rfl, readable_iff_over.mpr hover'⟩, ?_, fun _ => id⟩
      intro r₁ hr₁
      exact Waiting.call.inj hr₁ ▸ hfrom'

/-- Every open page shows the newest entries of the document, as many as it is for,
and nothing else. -/
def PagesPrint (profile : NamedProfile) (x : OutputRun) : Prop :=
  ∀ page ∈ x.shared.opened, ∀ now, Prints page.week (fields x.shared.db)
    (create page.week page.name x.shared.db (some profile.doc) now)

/-- A page is opened for at most 30 entries, and the write of a catch clause is not
delivered while a page for more than one entry is open. -/
def Waiting.Room (x : Output) : Waiting → Prop
  | .previewButton | .exportButton => week x.outWeek (fields x.db) ≤ 30
  | .done => True
  | .call r => ∀ s i, r.call = .replacing s i → ∀ page ∈ x.opened, page.week ≤ 1

def RoomForPages (x : OutputRun) : OutputRun.Act → Prop
  | .event _ => True
  | .move n reply => reply.fails = false → ∀ p, x.agents[n]? = some p → p.Room x.shared

/-- The table has room for a page, and the document has as many entries. -/
def Fits (db : RecordDoc) (page : PdfPage) : Prop := page.week ≤ 30 ∧ page.week ≤ (fields db).size

theorem pagesPrint_iff {profile : NamedProfile} (hx : Printable x) :
    PagesPrint profile x ↔ ∀ page ∈ x.shared.opened, Fits x.shared.db page := by
  obtain ⟨d, hd, hread⟩ := hx.shared
  obtain ⟨nickname, hname⟩ := profile.exists_nickname
  have hupTo : ∀ w, ReadableUpTo w d := by
    intro w e he
    have hstored := mem_newestFirst.mp (List.mem_of_mem_take he)
    exact hread e.1 ((Document.mem_iff_exists _).mpr ⟨_, hstored⟩)
  have hpage : ∀ page : PdfPage, (∀ now, Prints page.week (fields x.shared.db)
      (create page.week page.name x.shared.db (some profile.doc) now)) ↔
        Fits x.shared.db page := by
    intro page
    simp only [hd, fields_some, prints_iff hname, Fits, hupTo, and_true]
    exact ⟨fun h => h ⟨2024, 3, 1, 8, 0, 0, 0, 0, false⟩, fun h _ => h⟩
  exact forall₂_congr fun page _ => hpage page

theorem size_le_size_insertMany (d : Document ℤ) (writes : List (String × ℤ)) :
    d.size ≤ (d.insertMany writes).size := by
  induction writes generalizing d with
  | nil => simp
  | cons e writes ih =>
    rw [ExtTreeMap.insertMany_cons]
    exact Nat.le_trans ExtTreeMap.size_le_size_insert (ih _)

theorem size_single (s : String) (i : ℤ) :
    (fields (Firestore.set [(s, i)] : RecordDoc)).size = 1 := by
  rw [Firestore.set_singleton, fields_some, ExtTreeMap.size_insert]
  simp

/-- Only the write of a catch clause can leave too few entries for a page. -/
theorem fits_iff_of_answer {fails : Bool} {db db' : RecordDoc} {c c' : Call}
    (h : c.Answers fails db db' c') {pages : List PdfPage} (hpages : ∀ page ∈ pages, Fits db page) :
    (∀ page ∈ pages, Fits db' page) ↔
      (fails = false → ∀ s i, c = .replacing s i → ∀ page ∈ pages, page.week ≤ 1) := by
  cases h with
  | read | unread | unmerged => exact iff_of_true hpages (by simp)
  | merge s i writes =>
    refine iff_of_true ?_ (by simp)
    intro page hpage
    obtain ⟨hroom, hsize⟩ := hpages page hpage
    exact ⟨hroom, Nat.le_trans hsize (size_le_size_insertMany _ _)⟩
  | replace s i hfails =>
    simp only [Fits, size_single]
    constructor
    · intro hfits _ s' i' _ page hpage
      exact (hfits page hpage).2
    · intro hone page hpage
      exact ⟨(hpages page hpage).1, hone hfails s i rfl page hpage⟩
  | thrown c hc =>
    refine iff_of_true hpages ?_
    intro hfails s i hcall
    rw [hc s i hcall] at hfails
    cases hfails

/-- A page is opened for no more entries than the document has. -/
theorem fits_push_iff {x : Output} {data : Document ℤ} (hdb : x.db = some data) {page : PdfPage}
    (hweek : page.week = week x.outWeek data) (hx : ∀ page ∈ x.opened, Fits x.db page) :
    (∀ page' ∈ (x.push page).opened, Fits (x.push page).db page') ↔
      week x.outWeek (fields x.db) ≤ 30 := by
  have hpage : Fits x.db page ↔ week x.outWeek (fields x.db) ≤ 30 := by
    rw [Fits, hdb, fields_some, hweek, and_iff_left (week_le _ _)]
  constructor
  · intro h
    exact hpage.mp (h page (by simp [Output.push]))
  · intro h page' hmem
    rcases List.mem_append.mp hmem with hold | hnew
    · exact hx page' hold
    · rw [List.mem_singleton.mp hnew]
      exact hpage.mpr h

theorem fits_event {e : OutputEvent} {x : Output} (hx : ∀ page ∈ x.opened, Fits x.db page)
    (page : PdfPage) (h : page ∈ (outputEvent e x).1.opened) : Fits (outputEvent e x).1.db page := by
  have hdb : (outputEvent e x).1.db = x.db := by
    cases e <;> simp only [outputEvent] <;> split <;> rfl
  rw [hdb]
  exact hx page (mem_opened_event h)

theorem pagesPrint_step {profile : NamedProfile} (x : OutputRun) (act : OutputRun.Act)
    (y : OutputRun) (hx : Printable x) (hpages : PagesPrint profile x)
    (h : outputStep x act = some y) : PagesPrint profile y ↔ RoomForPages x act := by
  have hfits := (pagesPrint_iff hx).mp hpages
  rw [pagesPrint_iff (printable_step x act y hx h)]
  cases act with
  | event e =>
    rw [outputStep, Pool.step_event, Option.some.injEq] at h
    subst h
    exact iff_of_true (fun page hpage => fits_event hfits page hpage) trivial
  | move n reply =>
    obtain ⟨p, x', p', hp, hanswer, rfl⟩ := Pool.step_move_eq_some.mp h
    have hroom : RoomForPages x (.move n reply) ↔ (reply.fails = false → p.Room x.shared) := by
      simp [RoomForPages, hp]
    rw [hroom]
    obtain ⟨d, hd, -⟩ := hx.shared
    cases waiting_answers hanswer with
    | preview data hdb hfails => simpa [hfails, Waiting.Room] using fits_push_iff hdb rfl hfits
    | «export» data hdb hfails => simpa [hfails, Waiting.Room] using fits_push_iff hdb rfl hfits
    | thrown p hthrown =>
      rcases hthrown with hthrown | hthrown
      · exact iff_of_true hfits (by simp [hthrown])
      · rw [hd] at hthrown
        cases hthrown
    | call r r' db' hr => exact fits_iff_of_answer (answer_eq_some hr).1 hfits

/-- **When every open page can be printed, at any time.**  It shows the newest
entries of the document as it is then, exactly if no page is opened for 31 entries
and no write of a catch clause is delivered while a page for more than one entry is
open. -/
theorem pages_print_iff (profile : NamedProfile) (hread : Readable (fields db))
    (htap : tapOutput fails db = some s) (hrun : run outputStep s acts = some x) :
    Always outputStep (PagesPrint profile) s acts ↔ StepsMeet outputStep RoomForPages s acts := by
  obtain ⟨⟨d, rfl⟩, rfl⟩ := tapOutput_eq_some htap
  have hstart : Printable ⟨⟨some d, "", .one, []⟩, []⟩ := ⟨⟨d, rfl, hread⟩, by simp⟩
  exact always_iff_stepsMeet_of_invariant printable_step pagesPrint_step hstart
    (by simp [PagesPrint]) hrun

theorem readable_twoDays : Readable (fields (some twoDays)) := by
  intro k hk
  rcases mem_twoDays hk with rfl | rfl <;> decide

/-- A profile with nothing but a nickname. -/
def nicknamed : NamedProfile where
  doc := (∅ : Document Dyn).insert "ニックネーム" (.str "a")
  named := by simp

theorem pages_print_iff_twoDays :
    Always outputStep (PagesPrint nicknamed) onTwoDays twoDaysExported ↔
      StepsMeet outputStep RoomForPages onTwoDays twoDaysExported := by
  obtain ⟨x, hrun⟩ := exists_twoDays_run
  exact pages_print_iff nicknamed readable_twoDays tap_onTwoDays hrun

end

end Record
end FlutterSugar
