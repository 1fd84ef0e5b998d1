import W65C816.CommandLine.Listing
import W65C816.Proofs.Memory.Nesting
import W65C816.Proofs.Program.Reach

/-!
# The listing covers the image

The memory is made large enough for the image, and the view of the listing ends where the image
ends. So the walk begins with the first byte of the image, reads nothing behind its last one, and is
over there or in front of an instruction that the end of the image cuts off: `ReadsImage`.

The view has at least one byte more than lies before the load address. For an image without bytes
this byte is not one of the image: it is decoded, or there is no room for it. So the listing covers
the image exactly if the image has a byte, `lists_image_iff`.
-/

set_option autoImplicit false

namespace W65C816

/-- An image that is copied into a memory lies there from its offset on. -/
theorem Memory.byte_place (memory : Memory) {offset : Nat} {image : ByteArray}
    (fits : offset + image.size ≤ memory.size) {k : Nat} (inside : k < image.data.toList.length) :
    (memory.place offset image fits).byte (offset + k) = image.data.toList[k] := by
  obtain ⟨bytes, least, greatest⟩ := memory
  have fits : offset + image.size ≤ bytes.size := fits
  have inside : k < image.size := inside
  have before : (bytes.extract 0 offset).size = offset := by
    rw [ByteArray.size_extract]
    omega
  have whole : image.extract 0 (0 + image.size) = image := by
    rw [Nat.zero_add, ByteArray.extract_zero_size]
  have room : offset + k < (bytes.extract 0 offset ++ image).size := by
    rw [ByteArray.size_append, before]
    omega
  have named : offset + k < (image.copySlice 0 bytes offset image.size).size := by
    rw [ByteArray.copySlice_eq_append, whole, ByteArray.size_append]
    omega
  change (if h : _ then (image.copySlice 0 bytes offset image.size)[offset + k] else 0) = _
  rw [dif_pos named]
  simp only [ByteArray.copySlice_eq_append, whole]
  rw [ByteArray.getElem_append_left room, ByteArray.getElem_append_right (by omega)]
  simp only [before, Nat.add_sub_cancel_left]
  rfl

namespace CommandLine

variable {environment : Environment} {options : Options} {image : ByteArray}

/-! ## What is printed -/

/-- The report on a walk: a line for each record, and a line on the reason if the walk stopped. -/
def reportOf (found : Disassembly) : Report where
  output := String.join (found.records.toList.map fun record => record.line ++ "\n")
  errors :=
    match found.fault with
    | some fault => "disassembly stopped: " ++ fault.message ++ "\n"
    | none => ""

/-- Printing the lines of several records appends them in their order. -/
theorem foldl_print (report : Report) (records : List Record) :
    records.foldl (fun report record => report.print record.line) report =
      { report with
        output := report.output ++
          String.join (records.map fun record => record.line ++ "\n") } := by
  induction records generalizing report with
  | nil => simp
  | cons record rest ih =>
    rw [List.foldl_cons, ih, List.map_cons, String.join_cons, Report.print]
    simp only [String.append_assoc]

/-- Listing a view reports its walk. -/
theorem list_eq (options : Options) (view : View) :
    list options view {} = reportOf (listingWalk options view).run := by
  unfold list reportOf
  dsimp only
  rw [← Array.foldl_toList, foldl_print]
  cases (listingWalk options view).run.fault with
  | none => simp
  | some fault => simp [Report.warn]

/-! ## What is read -/

/-- The walk over the view reads the image, which lies from the load address on, and nothing
else. -/
structure ReadsImage (options : Options) (image : ByteArray) (view : View) : Prop where
  /-- Every instruction that is looked for begins in the image. -/
  inside : ∀ passed middle, (listingWalk options view).Yields passed middle →
    middle.isDone = false → options.load.toNat ≤ middle.offset.toNat ∧
      middle.offset.toNat < options.load.toNat + image.size
  /-- The records lie one behind another, the first one at the load address. -/
  tiles : Tiles options.load.toNat (listingWalk options view).run.records.toList
    (listingWalk options view).run.final.offset.toNat
  /-- The last one does not reach behind the image. -/
  within : (listingWalk options view).run.final.offset.toNat ≤
    options.load.toNat + image.size
  /-- What they were read from are the bytes that the image begins with. -/
  bytes : (listingWalk options view).run.records.toList.flatMap Record.bytes =
    image.data.toList.take
      ((listingWalk options view).run.final.offset.toNat - options.load.toNat)
  /-- Whatever other bytes there are around the image, the walk comes upon the same. -/
  blind : ∀ other : View, other.length = view.length →
    other.Holds options.load.toNat image.data.toList →
    (listingWalk options other).run.items = (listingWalk options view).run.items
  /-- A walk that does not fail comes to the end of the image. -/
  complete : (listingWalk options view).run.fault = none →
    (listingWalk options view).run.final.offset.toNat = options.load.toNat + image.size
  /-- A walk that fails stands in front of an instruction that is longer than what is left of the
  image. -/
  cut : ∀ fault, (listingWalk options view).run.fault = some fault →
    let rest := image.data.toList.drop
      ((listingWalk options view).run.final.offset.toNat - options.load.toNat)
    ∃ code length, rest.head? = some code ∧
      (DispatchTable.standard.get code).operandLength
        (listingWalk options view).run.final.widths = .ok length ∧
      rest.length < 1 + length

/-- The image can be loaded and listed, and the listing is that of a walk that reads the image and
nothing else. -/
def ListsImage (environment : Environment) (options : Options) (image : ByteArray) : Prop :=
  ∃ memory view, loadImage options image = .ok memory ∧
    View.window memory 0 (options.load.toNat + max image.size 1) = .ok view ∧
    ReadsImage options image view ∧
    let report := reportOf (listingWalk options view).run
    Report.ofImage environment options (.ok image) =
      match options.run with
      | none => report
      | some count => execute options environment.config count memory report

/-! ## Loading -/

/-- An image that ends within the greatest size is loaded, and lies at the load address. -/
theorem exists_loadImage (fits : options.load.toNat + image.size ≤ Memory.greatestSize) :
    ∃ memory, loadImage options image = .ok memory ∧
      memory.size = max defaultMemorySize (options.load.toNat + image.size) ∧
      ∀ k (inside : k < image.data.toList.length),
        memory.byte (options.load.toNat + k) = image.data.toList[k] := by
  have bounds : Memory.leastSize ≤ max defaultMemorySize (options.load.toNat + image.size) ∧
      max defaultMemorySize (options.load.toNat + image.size) ≤ Memory.greatestSize := by
    unfold Memory.leastSize Memory.greatestSize defaultMemorySize at *
    omega
  obtain ⟨empty, created, size⟩ := Memory.exists_create bounds
  have room : options.load.toNat + image.size ≤ empty.size := by omega
  refine ⟨empty.place options.load.toNat image room, ?_, by rw [Memory.size_place, size], ?_⟩
  · have loaded : empty.load options.load.toNat image =
        .ok (empty.place options.load.toNat image room) := dif_pos room
    rw [loadImage, created]
    exact loaded
  · exact fun k inside => empty.byte_place room inside

/-- The window of the listing can be cut exactly if the memory reaches behind its last byte. -/
theorem exists_window (memory : Memory) {length : Nat} (fits : length ≤ memory.size) :
    ∃ view, View.window memory 0 length = .ok view ∧ view.memory = memory ∧ view.start = 0 ∧
      view.length = length := by
  have room : 0 < memory.size ∧ 0 + length ≤ memory.size := ⟨memory.size_pos, by omega⟩
  exact ⟨_, dif_pos room, rfl, rfl, rfl⟩

/-! ## The listing of an image -/

/-- In a view that ends with the image, the walk reads the image and nothing else. -/
theorem readsImage {view : View} (length : view.length = options.load.toNat + image.size)
    (holds : view.Holds options.load.toNat image.data.toList) : ReadsImage options image view := by
  have size : image.data.toList.length = image.size := rfl
  have completes := (listingWalk options view).completes_run
  have settings := completes.yields.sameSettings
  have flat : (listingWalk options view).bus = .flat view := rfl
  have bus : (listingWalk options view).run.final.bus = .flat view := settings.bus
  have start : (listingWalk options view).offset = options.load := rfl
  obtain ⟨tiles, reach⟩ := completes.yields.tiles flat rfl
  obtain ⟨bytes, long⟩ := completes.yields.holds flat rfl
  have forward := completes.yields.offset_le flat
  rw [start] at tiles reach bytes long forward
  have within := reach (by omega)
  rw [length] at within
  refine ⟨?_, tiles, within, ?_, ?_, ?_, ?_⟩
  · intro passed middle yields going
    have onward := yields.offset_le flat
    rw [Disassembler.isDone, yields.sameSettings.bus, flat, Bool.or_eq_false_iff,
      decide_eq_false_iff_not, Nat.not_le] at going
    exact ⟨onward, length ▸ going.2⟩
  · have same := bytes.eq_take holds (by omega)
    rwa [show _ = (listingWalk options view).run.final.offset.toNat - options.load.toNat from
      Nat.eq_sub_of_add_eq' long] at same
  · intro other long others
    have agrees : view.AgreesFrom (listingWalk options view).offset.toNat other := by
      refine ⟨long, fun p first last => ?_⟩
      obtain ⟨k, rfl⟩ := Nat.exists_eq_add_of_le first
      have inside : k < image.data.toList.length := by
        rw [start] at last
        omega
      exact (others.byteAt inside).trans (holds.byteAt inside).symm
    have moved : listingWalk options other =
        { listingWalk options view with bus := .flat other } := rfl
    rw [moved]
    exact agrees.items_run_eq flat
  · intro clean
    have failed := completes.failed rfl
    rw [clean] at failed
    have done := Disassembler.done_of_next? failed completes.ended
    rw [bus] at done
    exact Nat.le_antisymm within (length ▸ done)
  · intro fault failed
    obtain ⟨inside, unread⟩ := completes.stands fault failed
    rw [bus] at inside unread
    rw [show (listingWalk options view).run.final.table = .standard from settings.table] at unread
    rcases DispatchTable.decodeAt_standard_cases inside (listingWalk options view).run.final.widths
      with ⟨-, record, read⟩ | ⟨⟨operand, known, cut⟩, -⟩
    · cases read.symm.trans unread
    · generalize (listingWalk options view).run.final = final at *
      obtain ⟨k, here⟩ := Nat.exists_eq_add_of_le forward
      have bound : k < image.data.toList.length := by
        have inside : final.offset.toNat < view.length := inside
        omega
      have byte := holds.byteAt bound
      rw [← here] at byte
      rw [here, Nat.add_sub_cancel_left]
      refine ⟨image.data.toList[k], operand, ?_, byte ▸ known, ?_⟩
      · rw [List.head?_drop, List.getElem?_eq_getElem bound]
      · have cut : view.length < final.offset.toNat + 1 + operand := cut
        rw [List.length_drop]
        omega

/-- An image that ends within the greatest size is listed as a whole exactly if it has a byte. The
view of the listing has one even if the image has none. -/
theorem lists_image_iff (environment : Environment) (options : Options) (image : ByteArray)
    (fits : options.load.toNat + image.size ≤ Memory.greatestSize) :
    ListsImage environment options image ↔ 0 < image.size := by
  constructor
  · rintro ⟨memory, view, -, framed, reads, -⟩
    obtain ⟨-, -, -, length⟩ := View.window_eq_ok_iff.mp framed
    have going : (listingWalk options view).isDone = false := by
      have inside : ¬ view.length ≤ options.load.toNat := by omega
      exact decide_eq_false inside
    have first := (reads.inside [] _ (.nil _) going).2
    have first : options.load.toNat < options.load.toNat + image.size := first
    omega
  · intro nonempty
    obtain ⟨memory, loaded, size, bytes⟩ := exists_loadImage fits
    have one : max image.size 1 = image.size := by omega
    obtain ⟨view, framed, same, start, length⟩ :=
      exists_window memory (show options.load.toNat + max image.size 1 ≤ memory.size by omega)
    have holds : view.Holds options.load.toNat image.data.toList := by
      refine View.holds_of_byteAt (by rw [length, one]; exact Nat.le_refl _) fun k inside => ?_
      rw [View.byteAt, same, start, Nat.zero_add]
      exact bytes k inside
    refine ⟨memory, view, loaded, framed, readsImage (by rw [length, one]) holds, ?_⟩
    change process options environment.config image = _
    simp only [process, loaded, framed, list_eq]
    cases options.run <;> rfl

/-- An image of one byte at the very end of the greatest memory is listed. -/
theorem lists_image_iff_last_byte :
    let options : Options :=
      { image := "image", load := 0x3FFFFFF, start := 0x3FFFFFF, run := none, native := false }
    let image : ByteArray := ⟨#[0xEA]⟩
    options.load.toNat + image.size ≤ Memory.greatestSize ∧
      ListsImage (fun _ => none) options image := by
  intro options image
  have fits : options.load.toNat + image.size ≤ Memory.greatestSize := by decide
  exact ⟨fits, (lists_image_iff (fun _ => none) options image fits).mpr (by decide)⟩

/-- An image without bytes that is loaded where the least memory ends. There is no room for the byte
behind it, and the tool fails. -/
theorem not_lists_image :
    let options : Options :=
      { image := "image", load := 0x20000, start := 0x20000, run := none, native := false }
    options.load.toNat + ByteArray.empty.size ≤ Memory.greatestSize ∧
      ¬ ListsImage (fun _ => none) options .empty ∧
      Report.ofImage (fun _ => none) options (.ok .empty) =
        Report.fail {} 1 (Fault.message (.outOfRange 0x20001 0x20000)) := by
  intro options
  have fits : options.load.toNat + ByteArray.empty.size ≤ Memory.greatestSize := by decide
  obtain ⟨memory, loaded, size, -⟩ := exists_loadImage fits
  have size : memory.size = 0x20000 := size
  have framed : View.window memory 0 0x20001 = .error (.outOfRange 0x20001 0x20000) := by
    have outside : ¬ (0 < memory.size ∧ 0 + 0x20001 ≤ memory.size) := by omega
    rw [View.window, dif_neg outside, size]
    rfl
  have window : View.window memory 0 (options.load.toNat + max ByteArray.empty.size 1) =
      .error (.outOfRange 0x20001 0x20000) := framed
  refine ⟨fits, ?_, ?_⟩
  · rintro ⟨other, view, same, cut, -⟩
    cases same.symm.trans loaded
    cases cut.symm.trans window
  · rw [Report.ofImage, process, loaded]
    dsimp only
    rw [window]

end CommandLine

end W65C816
