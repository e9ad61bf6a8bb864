/-
**A saved program loads again.** `SAVE` writes an image of the program into the byte store, or
changes nothing, and `LOAD` makes the program of the image the program of any machine with as much
memory, if there is room for it below the heap.

* `Memory.runOn_loadProgram`: how a program gets into memory;
* `Machine.NamesStore`: whether a statement names the byte store;
* `Machine.saveStatement_cases`: what `SAVE` does, and what the store holds then;
* `Machine.loadStatement_cases`, `Machine.loadImage_ok`: what `LOAD` does;
* **`Machine.saved_program_loads`**: both together, for a program whose length fits into an address;
* `Machine.long_program_is_lost`, `Machine.full_program_is_lost`: what happens to a longer one;
* `Machine.poked_program_runs_otherwise_from_store`: a saved program that does not run like the one
  in memory;
* **`Machine.damaged_image_is_refused`**: what happens when bytes of the program have changed.
-/

import PocketBasic.Machine.Run
import PocketBasic.Proofs.Machine.Evaluating
import PocketBasic.Proofs.Memory.LineTable
import PocketBasic.Proofs.Program.Image

namespace PocketBasic

/-! ### Programs in memory -/

/-- A token of one byte, as often as one likes. -/
theorem encodeAll_replicate {width : AddressWidth} {token : Token} {byte : UInt8}
    (encoded : token.encode width = .ok [byte]) (count : Nat) :
    encodeAll width (List.replicate count token) = .ok (List.replicate count byte) := by
  induction count with
  | zero => rfl
  | succ count ih =>
    rw [List.replicate_succ, encodeAll, ih, encoded]
    rfl

namespace Memory

variable {memory : Memory} {image : Bytes}

/-- The bytes of the program. -/
def programBytes (memory : Memory) : Bytes := memory.program.slice 0 memory.top

@[simp]
theorem length_programBytes : memory.programBytes.length = memory.top := by
  simp [programBytes, ProgramText.slice]

/-- The program is its bytes. -/
theorem program_eq_ofBytes (memory : Memory) :
    memory.program = ProgramText.ofBytes memory.programBytes := by
  have bytes : (fun offset => if offset < memory.top then memory.bytes.getD offset 0 else 0) =
      fun offset => memory.programBytes.getD offset 0 := by
    funext offset
    rw [programBytes, ProgramText.slice, List.getD_eq_getElem?_getD, List.getElem?_map]
    by_cases inside : offset < memory.top
    · simp [inside, program]
    · simp [inside]
  rw [ProgramText.ofBytes, length_programBytes, ← bytes]
  rfl

/-- **A program that is loaded is the program.** -/
theorem runOn_loadProgram (tops : memory.top ≤ memory.size) (inside : memory.himem ≤ memory.size)
    (room : image.length ≤ memory.himem) :
    ∃ loaded, (loadProgram image).runOn memory = (.ok (), loaded) ∧
      loaded.program = ProgramText.ofBytes image := by
  have cleared := runOn_clearProgram tops
  generalize bytes :
    List.replicate memory.top 0 ++ memory.contents.drop memory.top = rest at cleared
  have total : rest.length = memory.size := by
    rw [← bytes, List.length_append, List.length_replicate, List.length_drop, length_contents]
    omega
  have wrote := @runOn_write ((memory.withoutCache.holding rest).endingAt 0) []
    (rest.take image.length) (rest.drop image.length) image (by simp)
    (by rw [List.length_take]; omega)
  rw [List.nil_append] at wrote
  generalize known : ((memory.withoutCache.holding rest).endingAt 0).holding
    (image ++ rest.drop image.length) = written at wrote
  have holds : written.contents = image ++ rest.drop image.length := by
    rw [← known, contents_holding]
  refine ⟨written.endingAt image.length, ?_, program_of_begins holds rfl⟩
  rw [loadProgram, Attempt.runOn_get_bind, if_neg (Nat.not_lt.mpr room),
    Attempt.runOn_bind_ok cleared]
  exact (Attempt.runOn_bind_ok wrote _).trans (Attempt.runOn_modify _ _)

/-- The first line of a memory is stored if it fits. -/
theorem runOn_storeLine_ofSize {count : Nat} {line : LineNumber} {body : List Token}
    {record : Bytes} (numbered : line ≠ 0) (some : body ≠ [])
    (encoded : encodeAll (ofSize count).width (.lineNumber line :: body) = .ok record)
    (fits : record.length ≤ count) :
    ∃ stored, (storeLine line body).runOn (ofSize count) = (.ok (), stored) ∧
      stored.size = count ∧ stored.top = record.length := by
  have length : (ofSize count).contents.length = count := by
    rw [length_contents]
    exact Array.size_replicate
  have scratch : ((ofSize count).contents.take record.length).length = record.length := by
    rw [List.length_take, length, Nat.min_eq_left fits]
  have ran := @runOn_storeLine (ofSize count) line body [] [] [] record
    ((ofSize count).contents.take record.length) ((ofSize count).contents.drop record.length) none
    numbered some encoded rfl rfl (List.take_append_drop _ _).symm rfl scratch
    (by rw [scratch]; exact Nat.le_trans (Nat.le_of_eq (Nat.zero_add _)) fits)
  exact ⟨_, ran, by simp [length, fits], by simp⟩

end Memory

namespace Machine

variable {machine after : Machine} {store stored : ByteStore}

/-! ### Names -/

/-- Whether what stands behind the word at the cursor is the name of the byte store. -/
def NamesStore (machine : Machine) : Prop := machine.nextToken.cursor.token = .literal storeName

instance (machine : Machine) : Decidable machine.NamesStore := inferInstanceAs (Decidable (_ = _))

/-- The machine once the word and the name behind it were read. -/
def behindName (machine : Machine) : Machine := machine.nextToken.nextToken

theorem behindName_eq (machine : Machine) :
    machine.behindName = { machine with cursor := machine.behindName.cursor } := by
  rw [behindName, nextToken_eq, nextToken_eq]

/-- In a typed line the name is read from the cursor alone. -/
theorem NamesStore.of_cursor {other : Machine} (names : machine.NamesStore)
    (typed : machine.cursor.mode = .interactive) (same : other.cursor = machine.cursor) :
    other.NamesStore := by
  rw [NamesStore, nextToken] at names ⊢
  rw [same]
  simpa only [typed] using names

theorem runOn_storeName (names : machine.NamesStore) :
    fileName.runOn machine.nextToken = (.ok storeName, machine.behindName) := by
  have read : text.runOn machine.nextToken = (.ok storeName, machine.behindName) := by
    rw [text, evaluate, Attempt.runOn_get_bind, Evaluator.text, Evaluator.string?, token,
      bind_assoc, bind_assoc, Attempt.runOn_get_bind, Attempt.runOn_pure_bind, names]
    rfl
  have named : Unicode.repaired storeName = storeName := by decide +kernel
  rw [fileName, Attempt.reportingAs, Attempt.runOn_bind_eq_goOn, Attempt.runOn_ofRun, read,
    Attempt.goOn_ok, named, Attempt.runOn_pure]

theorem runOn_saveStatement (names : machine.NamesStore) :
    saveStatement.runOn machine = saveImage.runOn machine.behindName := by
  rw [saveStatement, advance, Attempt.runOn_modify_bind,
    Attempt.runOn_bind_ok (runOn_storeName names), if_pos rfl]

/-! ### Saving -/

/-- The mark of a program that is saved: whether it starts at power on stays as it was. -/
def keptMark (store : ByteStore) : UInt8 :=
  if store.read 0 = ProgramImage.autorunFlag then ProgramImage.autorunFlag
  else ProgramImage.plainFlag

theorem keptMark_ne (store : ByteStore) : keptMark store ≠ ProgramImage.emptyFlag := by
  rw [keptMark]
  split <;> decide

theorem keptMark_eq_autorunFlag (store : ByteStore) :
    keptMark store = ProgramImage.autorunFlag ↔ store.read 0 = ProgramImage.autorunFlag := by
  rw [keptMark]
  split
  · rename_i marked
    exact ⟨fun _ => marked, fun _ => rfl⟩
  · rename_i unmarked
    exact ⟨fun same => absurd same (by decide), fun marked => absurd marked unmarked⟩

/-- **The program is written into the store, or nothing changes.** -/
theorem saveImage_cases (machine : Machine) :
    (∃ failure, saveImage.runOn machine = (.error failure, machine)) ∨
      ∃ store stored, machine.host.store = some store ∧
        ProgramImage.write? store machine.memory.width (keptMark store)
          machine.memory.programBytes = some stored ∧
        saveImage.runOn machine =
          (.ok (), { machine with host := { machine.host with store := some stored } }) := by
  rw [saveImage, Attempt.runOn_get_bind]
  split
  · exact .inl ⟨_, Attempt.runOn_failWith _ _ _⟩
  rename_i store there
  dsimp only
  split
  · exact .inl ⟨_, Attempt.runOn_failWith _ _ _⟩
  · rename_i stored saved
    exact .inr ⟨store, stored, there, saved, Attempt.runOn_set _ _⟩

/-- **`SAVE` writes the image of the program into the store, or changes nothing.** -/
theorem saveStatement_cases (names : machine.NamesStore)
    (words : ∀ store, machine.host.store = some store → store.size < Address.modulus) :
    (∃ failure, saveStatement.runOn machine = (.error failure, machine.behindName)) ∨
      ∃ store stored after rest, machine.host.store = some store ∧
        saveStatement.runOn machine = (.ok (), after) ∧ after.host.store = some stored ∧
        stored.contents = ProgramImage.header machine.memory.width (keptMark store)
          machine.memory.programBytes ++ (machine.memory.programBytes ++ rest) ∧
        stored.size < Address.modulus := by
  have same := behindName_eq machine
  have host : machine.behindName.host = machine.host := by rw [same]
  have memory : machine.behindName.memory = machine.memory := by rw [same]
  rw [runOn_saveStatement names]
  rcases saveImage_cases machine.behindName with failed | ⟨store, stored, there, saved, ran⟩
  · exact .inl failed
  rw [host] at there
  rw [memory] at saved
  obtain ⟨held, size⟩ := ProgramImage.write?_eq_some (words store there) saved
  exact .inr ⟨store, stored, _, _, there, ran, rfl, held, size ▸ words store there⟩

/-- **A store with room for the image takes it.** -/
theorem saveStatement_ok (names : machine.NamesStore) (there : machine.host.store = some store)
    (room : ProgramImage.headerLength machine.memory.width + machine.memory.top ≤ store.size) :
    (saveStatement.runOn machine).1 = .ok () := by
  have kept := behindName_eq machine
  rw [runOn_saveStatement names, saveImage, Attempt.runOn_get_bind, kept]
  dsimp only
  rw [there]
  dsimp only
  rw [ProgramImage.write?, if_pos (by simpa [ProgramText.slice, Memory.program] using room),
    Attempt.runOn_set]

/-! ### Loading -/

/-- **The program of an image in the store is loaded.** -/
theorem loadImage_ok {flag : UInt8} {program rest : Bytes}
    (there : machine.host.store = some stored) (held : stored.contents =
      ProgramImage.header machine.memory.width flag program ++ (program ++ rest))
    (words : stored.size < Address.modulus) (fits : program.length ≤ machine.memory.width.largest)
    (marked : flag ≠ ProgramImage.emptyFlag) (tops : machine.memory.top ≤ machine.memory.size)
    (inside : machine.memory.himem ≤ machine.memory.size)
    (room : program.length ≤ machine.memory.himem) :
    ∃ memory, loadImage.runOn machine = (.ok (), { machine with memory }) ∧
      memory.program = ProgramText.ofBytes program := by
  obtain ⟨image, found, rfl, sound⟩ := ProgramImage.exists_ofStore? held words fits marked
  obtain ⟨loaded, ran, same⟩ := Memory.runOn_loadProgram tops inside room
  refine ⟨loaded, ?_, same⟩
  rw [loadImage, Attempt.runOn_get_bind, there]
  dsimp only
  rw [found]
  dsimp only
  rw [if_pos sound, runOn_onMemory, ran]

/-- **An image whose checksum does not fit is not loaded**, and nothing changes. -/
theorem loadImage_unsound {image : ProgramImage} (there : machine.host.store = some stored)
    (found : ProgramImage.ofStore? stored machine.memory.width = some image)
    (unsound : image.isSound = false) :
    loadImage.runOn machine =
      (.error (.reported { kind := .storeError, detail := "CHECKSUM" }), machine) := by
  rw [loadImage, Attempt.runOn_get_bind, there]
  dsimp only
  rw [found]
  dsimp only
  rw [if_neg (by rw [unsound]; decide), Attempt.runOn_failWith]

/-- What is loaded is an image of the store. -/
theorem exists_of_loadImage (there : machine.host.store = some stored)
    (tops : machine.memory.top ≤ machine.memory.size)
    (inside : machine.memory.himem ≤ machine.memory.size)
    (ran : loadImage.runOn machine = (.ok (), after)) :
    ∃ image, ProgramImage.ofStore? stored machine.memory.width = some image ∧
      after.memory.program = ProgramText.ofBytes image.bytes := by
  rw [loadImage, Attempt.runOn_get_bind, there] at ran
  dsimp only at ran
  split at ran
  · cases ran
  rename_i image found
  split at ran
  · rw [runOn_onMemory] at ran
    by_cases room : image.bytes.length ≤ machine.memory.himem
    · obtain ⟨loaded, loads, same⟩ := Memory.runOn_loadProgram tops inside room
      rw [loads] at ran
      cases ran
      exact ⟨image, found, same⟩
    · rw [Memory.loadProgram, Attempt.runOn_get_bind, if_pos (Nat.not_le.mp room)] at ran
      cases ran
  · cases ran

/-- **`LOAD` does what loading the image does**; what follows leaves memory and host alone. -/
theorem loadStatement_cases (names : machine.NamesStore) :
    (∃ failure after, loadImage.runOn machine.behindName = (.error failure, after) ∧
        loadStatement.runOn machine = (.error failure, after)) ∨
      ∃ after loaded, loadImage.runOn machine.behindName = (.ok (), after) ∧
        loadStatement.runOn machine = (.ok (), loaded) ∧ loaded.memory = after.memory ∧
        loaded.host = after.host := by
  have asked (machine : Machine) : isInteractive.runOn machine =
      (.ok (decide (machine.cursor.mode = .interactive)), machine) := rfl
  rw [loadStatement, advance, Attempt.runOn_modify_bind,
    Attempt.runOn_bind_ok (runOn_storeName names), Attempt.runOn_bind_ok (asked _), loadProgram,
    if_pos rfl]
  rcases ran : loadImage.runOn machine.behindName with ⟨failure | ⟨⟩, after⟩
  · exact .inl ⟨failure, after, rfl, Attempt.runOn_bind_error ran _⟩
  dsimp only
  rw [Attempt.runOn_bind_ok ran, Attempt.runOn_modify_bind]
  split
  · rw [Attempt.runOn_modify_bind, startOf, moveTo, Attempt.runOn_modify]
    exact .inr ⟨_, _, rfl, rfl, by rw [jump, nextToken_eq], by rw [jump, nextToken_eq]⟩
  · exact .inr ⟨_, _, rfl, Attempt.runOn_pure _ _, rfl, rfl⟩

/-! ### Saving and loading -/

/-- **A saved program loads again.** `SAVE` with the name of the byte store changes nothing there
when it fails. When it succeeds, the mark of the store is as it was, and in every machine with as
much memory that has this store and room for the program below its heap, `LOAD` succeeds and makes
the program what was saved, byte for byte, if its length fits into an address. -/
theorem saved_program_loads (names : machine.NamesStore)
    (words : ∀ store, machine.host.store = some store → store.size < Address.modulus) :
    (∀ failure after, saveStatement.runOn machine = (.error failure, after) →
      after.host.store = machine.host.store) ∧
    ∀ after, saveStatement.runOn machine = (.ok (), after) →
      ∃ store stored, machine.host.store = some store ∧ after.host.store = some stored ∧
        (stored.read 0 = ProgramImage.autorunFlag ↔ store.read 0 = ProgramImage.autorunFlag) ∧
        (machine.memory.top ≤ machine.memory.width.largest →
          ∀ loader : Machine, loader.NamesStore → loader.host.store = some stored →
            loader.memory.size = machine.memory.size → loader.memory.top ≤ loader.memory.himem →
            loader.memory.himem ≤ loader.memory.size →
            machine.memory.top ≤ loader.memory.himem →
            ∃ loaded, loadStatement.runOn loader = (.ok (), loaded) ∧
              loaded.memory.program = machine.memory.program ∧
              loaded.host.store = some stored) := by
  rcases saveStatement_cases names words with
    ⟨failure, ran⟩ | ⟨store, stored, after, rest, there, ran, thereAfter, held, short⟩
  · refine ⟨fun failure' after failed => ?_, fun after succeeded => ?_⟩
    · rw [ran] at failed
      cases failed
      rw [behindName_eq]
    · rw [ran] at succeeded
      cases succeeded
  refine ⟨fun failure after failed => ?_, fun after succeeded => ?_⟩
  · rw [ran] at failed
    cases failed
  rw [ran] at succeeded
  cases succeeded
  refine ⟨store, stored, there, thereAfter, ?_,
    fun fits loader names' there' sizes tops inside room => ?_⟩
  · rw [ProgramImage.read_mark held]
    exact keptMark_eq_autorunFlag store
  have widths : loader.memory.width = machine.memory.width := congrArg AddressWidth.forSize sizes
  rw [← widths] at held fits
  have kept := behindName_eq loader
  obtain ⟨loaded, imageRan, program⟩ := @loadImage_ok loader.behindName stored (keptMark store)
    machine.memory.programBytes rest (by rw [kept]; exact there') (by rw [kept]; exact held)
    short (by rw [kept, Memory.length_programBytes]; exact fits)
    (keptMark_ne store) (by rw [kept]; exact Nat.le_trans tops inside) (by rw [kept]; exact inside)
    (by rw [kept, Memory.length_programBytes]; exact room)
  rcases loadStatement_cases names' with ⟨_, _, failed, -⟩ | ⟨_, final, same, ran, memory, host⟩
  · rw [imageRan] at failed
    cases failed
  rw [imageRan] at same
  cases same
  refine ⟨final, ran, ?_, ?_⟩
  · rw [memory, program, ← Memory.program_eq_ofBytes]
  · rw [host, kept, there']

/-- A typed line that is stored, saved, and loaded by a machine that was switched on anew. -/
theorem saved_program_loads_line :
    let config : Config := { memorySize := 32 }
    let typed := ((enter (ascii "10 X=1")).runOn
      (start config { store := some (ByteStore.erased 24) })).2
    let saver := ((enter (ascii "SAVE \"!\"")).runOn typed).2
    let saved := (saveStatement.runOn saver).2
    let loader := ((enter (ascii "LOAD \"!\"")).runOn saved.restart).2
    saver.memory.top = 12 ∧ loader.memory.top = 0 ∧
      ∃ loaded, loadStatement.runOn loader = (.ok (), loaded) ∧
        loaded.memory.program = saver.memory.program := by
  intro config typed saver saved loader
  have seen : saver.NamesStore ∧ (saveStatement.runOn saver).1 = .ok () ∧ loader.NamesStore ∧
      saver.host.store = some (ByteStore.erased 24) ∧ loader.host.store = saved.host.store ∧
      saver.memory.size = 32 ∧ loader.memory.size = 32 ∧ loader.memory.himem = 32 ∧
      saver.memory.top = 12 ∧ loader.memory.top = 0 := by
    decide +kernel
  obtain ⟨names, saves, names', store, same, size, size', himem, top, empty⟩ := seen
  have words : ∀ store, saver.host.store = some store → store.size < Address.modulus := by
    intro other there
    rw [store] at there
    cases there
    decide
  obtain ⟨_, stored, -, there, -, loads⟩ :=
    (saved_program_loads names words).2 saved (Prod.ext saves rfl)
  obtain ⟨loaded, ran, program, -⟩ := loads (by rw [top, Memory.width, size]; decide) loader names'
    (same.trans there) (by rw [size, size']) (by omega) (by omega) (by omega)
  exact ⟨top, empty, loaded, ran, program⟩

/-- **A program whose length does not fit into an address is lost.** `SAVE` may report nothing, but
whatever `LOAD` makes of the store is shorter than the program that was saved. -/
theorem long_program_is_lost (names : machine.NamesStore)
    (words : ∀ store, machine.host.store = some store → store.size < Address.modulus)
    (long : machine.memory.width.largest < machine.memory.top)
    (saved : saveStatement.runOn machine = (.ok (), after)) {loader loaded : Machine}
    (names' : loader.NamesStore) (there : loader.host.store = after.host.store)
    (sizes : loader.memory.size = machine.memory.size)
    (tops : loader.memory.top ≤ loader.memory.size)
    (inside : loader.memory.himem ≤ loader.memory.size)
    (ran : loadStatement.runOn loader = (.ok (), loaded)) :
    loaded.memory.program.length < machine.memory.program.length := by
  rcases saveStatement_cases names words with
    ⟨failure, failed⟩ | ⟨store, stored, final, rest, -, ended, thereAfter, held, short⟩
  · rw [saved] at failed
    cases failed
  rw [saved] at ended
  cases ended
  rcases loadStatement_cases names' with ⟨_, _, -, failed⟩ | ⟨_, _, imageRan, same, memory, -⟩
  · rw [ran] at failed
    cases failed
  rw [ran] at same
  cases same
  have kept := behindName_eq loader
  have widths : loader.memory.width = machine.memory.width := congrArg AddressWidth.forSize sizes
  obtain ⟨image, found, program⟩ := exists_of_loadImage (by rw [kept, there, thereAfter])
    (by rw [kept]; exact tops) (by rw [kept]; exact inside) imageRan
  rw [kept, widths] at found
  have length := ProgramImage.length_ofStore? held short found
  rw [memory, program]
  show image.bytes.length < machine.memory.top
  rw [length, Memory.length_programBytes, ← AddressWidth.largest_add_one]
  exact Nat.lt_of_lt_of_le (Nat.mod_lt _ (Nat.succ_pos _)) long

/-- A line that fills a memory of 64 KiB: `SAVE` reports nothing, and no `LOAD` brings it back. -/
theorem full_program_is_lost :
    let line := Memory.storeLine 1 (List.replicate 65533 (.operator .plus))
    let typed (text : String) := ((enter (ascii text)).runOn (start {} {})).2
    ∃ memory, line.runOn (Memory.ofSize 65536) = (.ok (), memory) ∧
      let saver := { typed "SAVE \"!\"" with
        memory, host := { store := some (ByteStore.erased 65541) } }
      let saved := saveStatement.runOn saver
      let loader := { typed "LOAD \"!\"" with
        memory := Memory.ofSize 65536, host := saved.2.host }
      saved.1 = .ok () ∧ ∀ loaded, loadStatement.runOn loader = (.ok (), loaded) →
        loaded.memory.program ≠ memory.program := by
  intro line typed
  have fresh : (Memory.ofSize 65536).size = 65536 := Array.size_replicate
  have encoded : encodeAll (Memory.ofSize 65536).width
      (.lineNumber 1 :: List.replicate 65533 (.operator .plus)) =
        .ok ([Tag.lineNumber, 1, 0] ++ List.replicate 65533 43) := by
    rw [Memory.width, fresh, encodeAll, encodeAll_replicate rfl]
    rfl
  have length : ([Tag.lineNumber, 1, 0] ++ List.replicate 65533 43).length = 65536 := by
    rw [List.length_append, List.length_replicate]
    rfl
  have some : List.replicate 65533 (Token.operator .plus) ≠ [] :=
    List.ne_nil_of_length_pos (by rw [List.length_replicate]; decide)
  obtain ⟨memory, ran, size, top⟩ := Memory.runOn_storeLine_ofSize
    (show (1 : LineNumber) ≠ 0 by decide) some encoded (Nat.le_of_eq length)
  rw [length] at top
  have width : memory.width = .two := by rw [Memory.width, size]; rfl
  have words : (ByteStore.erased 65541).size = 65541 := Array.size_replicate
  refine ⟨memory, ran, ?_⟩
  intro saver saved loader
  have seen : (typed "SAVE \"!\"").NamesStore ∧ (typed "LOAD \"!\"").NamesStore ∧
      (typed "SAVE \"!\"").cursor.mode = .interactive ∧
      (typed "LOAD \"!\"").cursor.mode = .interactive := by
    decide +kernel
  have names : saver.NamesStore := seen.1.of_cursor seen.2.2.1 rfl
  have names' : loader.NamesStore := seen.2.1.of_cursor seen.2.2.2 rfl
  have ok : saved.1 = .ok () := by
    refine saveStatement_ok names rfl ?_
    show ProgramImage.headerLength memory.width + memory.top ≤ _
    rw [words, width, top]
    decide
  refine ⟨ok, fun loaded loads same => ?_⟩
  have long : memory.width.largest < memory.top := by
    rw [width, top]
    decide
  have lost := long_program_is_lost names
    (fun store there => by cases there; rw [words]; decide) long (Prod.ext ok rfl) names' rfl
    (fresh.trans size.symm) (Nat.zero_le _) (Nat.le_of_eq fresh.symm) loads
  exact Nat.lt_irrefl _ (same ▸ lost)

/-! ### Running from the store -/

/-- A program that a `POKE` changed after one of its lines was looked up does not run from the store
as it runs from memory, with the same bytes and all else equal: memory still goes to where the line
was. -/
theorem poked_program_runs_otherwise_from_store :
    let typing (machine : Machine) (text : String) :=
      ((execute 9).runOn ((enter (ascii text)).runOn machine).2).2
    let host : Host :=
      { store := some (ByteStore.erased 64), streams := [(Channel.console, {})] }
    let saved := ["10 GOTO 20", "20 PRINT \"LINE 20\"", "RESTORE 20", "POKE 10,30", "SAVE \"!\"",
      "SET 1,1"].foldl typing (start { memorySize := 64 } host)
    let left := (step.runOn ((enter (ascii "RUN")).runOn saved).2).2
    let right := (autorun.runOn (start { memorySize := 64 } left.host)).2
    let fromMemory := (execute 9).runOn left
    let fromStore := (execute 9).runOn right
    left.cursor.location = { mode := .run, offset := 0 } ∧
      right.cursor.location = { mode := .runStore, offset := 0 } ∧
      (left.programText .run).slice 0 64 = (right.programText .runStore).slice 0 64 ∧
      left.memory.himem = right.memory.himem ∧ left.config = right.config ∧
      left.host = right.host ∧ left.operands = right.operands ∧ left.loops = right.loops ∧
      left.returns = right.returns ∧ left.handler = right.handler ∧ left.timers = right.timers ∧
      left.pins = right.pins ∧ left.data = right.data ∧ left.random = right.random ∧
      fromMemory.1.toOption = some .stopped ∧
      fromMemory.2.host.takeOutput.1 = [(Channel.console, ascii "LINE 20\n")] ∧
      fromStore.1.toOption = some (.failed { kind := .undefinedLine, line := some 10 }) := by
  decide +kernel

/-! ### Damaged images -/

/-- A store with an image that is not sound starts nothing at power on. -/
theorem autorun_unsound {image : ProgramImage} (there : machine.host.store = some stored)
    (found : ProgramImage.ofStore? stored machine.memory.width = some image)
    (unsound : image.isSound = false) : autorun.runOn machine = (.ok false, machine) := by
  have silent : ProgramImage.startsAtPowerOn stored machine.memory.width = false := by
    rw [ProgramImage.startsAtPowerOn, found]
    dsimp only
    rw [unsound, Bool.and_false]
  rw [autorun, Attempt.runOn_get_bind, there, if_neg (by rw [Option.any_some, silent]; decide),
    Attempt.runOn_pure]

/-- **A damaged image is refused.** Once `SAVE` has written a program whose length fits into an
address, and one byte of it in the store or two neighbouring ones have changed, `LOAD` reports the
checksum in every machine whose addresses are as long, wherever in the program the damage is, and
changes nothing but what is read next. Such a store starts nothing at power on. -/
theorem damaged_image_is_refused (names : machine.NamesStore)
    (words : ∀ store, machine.host.store = some store → store.size < Address.modulus)
    (saved : saveStatement.runOn machine = (.ok (), after))
    (there : after.host.store = some stored)
    (fits : machine.memory.top ≤ machine.memory.width.largest) {data : Bytes} {place : Nat}
    (short : data.length ≤ 2) (inside : place + data.length ≤ machine.memory.top)
    (changed : stored.writeAll (ProgramImage.headerLength machine.memory.width + place) data ≠
      stored)
    {loader : Machine} (widths : loader.memory.width = machine.memory.width)
    (damaged : loader.host.store = some
      (stored.writeAll (ProgramImage.headerLength machine.memory.width + place) data)) :
    (loader.NamesStore → ∃ refused, loadStatement.runOn loader =
        (.error (.reported { kind := .storeError, detail := "CHECKSUM" }), refused) ∧
      refused = { loader with cursor := refused.cursor }) ∧
    autorun.runOn loader = (.ok false, loader) := by
  rcases saveStatement_cases names words with
    ⟨failure, failed⟩ | ⟨store, written, final, rest, -, ended, thereAfter, held, size⟩
  · rw [saved] at failed
    cases failed
  rw [saved] at ended
  cases ended
  rw [there] at thereAfter
  cases thereAfter
  obtain ⟨image, found, unsound⟩ := ProgramImage.exists_ofStore?_damaged held size
    (by rw [Memory.length_programBytes]; exact fits) (keptMark_ne store) short
    (by rw [Memory.length_programBytes]; exact inside) changed
  rw [← widths] at found damaged
  refine ⟨fun names' => ⟨loader.behindName, ?_, behindName_eq loader⟩,
    autorun_unsound damaged found unsound⟩
  have kept := behindName_eq loader
  have refused := @loadImage_unsound loader.behindName _ image (by rw [kept]; exact damaged)
    (by rw [kept]; exact found) unsound
  rcases loadStatement_cases names' with ⟨failure, final, failed, ran⟩ | ⟨final, _, loaded, -⟩
  · rw [refused] at failed
    cases failed
    exact ran
  · rw [refused] at loaded
    cases loaded

/-- Two bytes of a stored line that were overwritten, for a machine that is switched on anew. -/
theorem damaged_image_is_refused_line :
    let config : Config := { memorySize := 32 }
    let typed := ((enter (ascii "10 X=1")).runOn
      (start config { store := some (ByteStore.erased 24) })).2
    let saver := ((enter (ascii "SAVE \"!\"")).runOn typed).2
    let saved := (saveStatement.runOn saver).2
    let damaged := (saved.host.store.getD (ByteStore.erased 24)).writeAll (5 + 10) [81, 13]
    let switched := start config { store := some damaged }
    let loader := ((enter (ascii "LOAD \"!\"")).runOn switched).2
    saver.memory.top = 12 ∧ loader.NamesStore ∧ ∃ refused, loadStatement.runOn loader =
        (.error (.reported { kind := .storeError, detail := "CHECKSUM" }), refused) ∧
      refused = { loader with cursor := refused.cursor } := by
  intro config typed saver saved damaged switched loader
  have seen : saver.NamesStore ∧ (saveStatement.runOn saver).1 = .ok () ∧ loader.NamesStore ∧
      saver.host.store = some (ByteStore.erased 24) ∧
      saved.host.store = some (saved.host.store.getD (ByteStore.erased 24)) ∧
      saver.memory.size = 32 ∧ loader.memory.size = 32 ∧ saver.memory.top = 12 ∧
      damaged ≠ saved.host.store.getD (ByteStore.erased 24) ∧
      loader.host.store = some damaged := by
    decide +kernel
  obtain ⟨names, saves, names', store, there, size, size', top, changed, held⟩ := seen
  have words : ∀ store, saver.host.store = some store → store.size < Address.modulus := by
    intro other same
    rw [store] at same
    cases same
    decide
  have width : saver.memory.width = .two := by
    rw [Memory.width, size]
    rfl
  have header : ProgramImage.headerLength saver.memory.width = 5 := by
    rw [width]
    rfl
  have refused := (@damaged_image_is_refused saver saved _ names words (Prod.ext saves rfl) there
    (by rw [top, width]; decide) [81, 13] 10 (by decide) (by rw [top]; decide)
    (by rw [header]; exact changed) loader (by rw [Memory.width, Memory.width, size, size'])
    (by rw [header]; exact held)).1 names'
  exact ⟨top, names', refused⟩

end Machine

end PocketBasic
