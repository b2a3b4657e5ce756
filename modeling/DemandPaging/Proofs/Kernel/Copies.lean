import DemandPaging.Proofs.Kernel.Calls
import DemandPaging.Proofs.Paging.Access
import DemandPaging.Proofs.Paging.Copy

/-!
# Copies

A copy pins a page, moves the bytes that it has come to, and takes the pin off again. What it moves
are the bytes of the flat machine, since a pinned page stays in its frame; and a page that is
written is dirty before any byte is moved.
-/

namespace DemandPaging.Kernel

variable {σ : Type} [Extent σ] [Extent.Reliable σ] {k : Kernel σ} {m : FlatMachine}
  {n place : Nat} {p : UserProcess} {request : Request} {moved : List UInt8} {result : After σ}
  {callers : Multiset Nat}

namespace Calling

/-- A copy is answered when it is complete, or cannot go on. -/
theorem answer_copy (h : k.Calling m n place p ⟨request, .pinning, moved⟩ callers)
    (hdone : request.count ≤ moved.length ∨
      p.numPages ≤ Address.page k.config.pageSize (copyAddress ⟨request, .pinning, moved⟩) ∨
      request.isWriting = true ∧ p.image.isReadOnly
        (Address.page k.config.pageSize (copyAddress ⟨request, .pinning, moved⟩)) = true) :
    FlatMachine.Step m (.advance n)
      (some (copyAnswer ⟨request, .pinning, moved⟩) : Option (Response σ))
      (m.setErrand n .idle) := by
  obtain ⟨q, hq, rfl⟩ := h.flat
  have hpos := h.pageSize_pos
  have hcopy : request.isCopy = true := h.fits.stage
  have hout : ∀ a, q.process.numPages ≤ Address.page k.config.pageSize a →
      q.size m.config.pageSize ≤ a := by
    intro a ha
    rw [h.sound.config_eq, ← Nat.not_lt, q.lt_size_iff hpos, Nat.not_lt]
    exact ha
  cases request with
  | copyOut a count =>
      refine .copied h.thread hq ?_
      rcases hdone with hdone | hdone | ⟨hwriting, -⟩
      · exact .inl (Nat.le_antisymm h.fits.moved_le hdone)
      · exact .inr (hout _ hdone)
      · cases hwriting
  | copyIn a data =>
      refine .stored h.thread hq ?_
      rcases hdone with hdone | hdone | ⟨-, hro⟩
      · exact .inl (Nat.le_antisymm h.fits.moved_le hdone)
      · exact .inr (.inl (hout _ hdone))
      · rw [h.sound.config_eq]
        exact .inr (.inr ((q.protected_iff hpos).2 hro))
  | _ => cases hcopy

/-- The next page of a copy is pinned. -/
theorem pin_run (h : k.Calling m n place p ⟨request, .pinning, moved⟩ callers)
    (hrun : k.pinNext (threadOf n) p ⟨request, .pinning, moved⟩ = some (.ok result)) :
    k.Reaches m n result callers := by
  have hpaging := h.paging_bare rfl rfl rfl
  have hcopy : request.isCopy = true := h.fits.stage
  rw [pinNext] at hrun
  split at hrun
  · rename_i hdone
    obtain rfl := Except.ok.inj (Option.some.inj hrun)
    exact h.reply_still rfl (.refl k) rfl rfl rfl rfl
      (h.answer_copy (hdone.imp_right .inl))
  · rename_i hmore
    rw [not_or, Nat.not_le, Nat.not_le] at hmore
    obtain ⟨hmoved, hpage⟩ := hmore
    obtain ⟨⟨r, k1⟩, hlocked, hrun⟩ := step_of_map hrun fun halt => ⟨halt, rfl⟩
    obtain ⟨paging, hact, rfl⟩ := locked_ok h.sound.region_eq hlocked
    rcases hpaging.pinForCopy_run h.live_or hpage request.isWriting with
      ⟨r', s', hpin, hpinning⟩ | ⟨frame, hhalt, -⟩
    · obtain ⟨rfl, rfl⟩ := Prod.mk.inj (Except.ok.inj (hact.symm.trans hpin))
      cases hpinning with
      | @pinned frame e _ hlive hs hp he hf hw hstill =>
          obtain rfl := Except.ok.inj hrun
          refine h.proceed_holder rfl (.withPaging k paging) rfl ⟨hcopy, hmoved⟩ rfl
            (h.exclusive_of_bare rfl) (congrArg Processor.pageSize hp) hs (fun _ => ⟨e, ?_, hf, ?_⟩)
            (h.unnoticed rfl)
          · show paging.tables.find? ⟨p.pid, Address.page paging.processor.pageSize _⟩ = some e
            rw [hp, h.sound.pageSize_eq]
            exact he
          · rw [hp, h.sound.pageSize_eq]
            exact hw
      | readOnly hlive hw hr =>
          obtain rfl := Except.ok.inj hrun
          exact h.reply_still rfl (.refl k) rfl rfl rfl rfl
            (h.answer_copy (.inr (.inr ⟨hw, hr⟩)))
      | absent hlive hun =>
          obtain rfl := Except.ok.inj hrun
          -- the miss is at the start of the page that the copy has come to
          have hjoin := Address.page_join_page k.config.pageSize
            (copyAddress ⟨request, .pinning, moved⟩)
          refine h.proceed_bare rfl (.refl k) rfl
            (.inr ⟨hcopy, hjoin.symm ▸ hpage⟩) rfl rfl rfl rfl hpaging ?_ (h.unnoticed rfl)
          show k.paging.Uncached (Address.page k.paging.processor.pageSize _)
          rw [h.sound.pageSize_eq, hjoin]
          exact hun
      | ended hlive =>
          obtain rfl := Except.ok.inj hrun
          obtain ⟨q, hq, rfl⟩ := h.flat
          have hexited : q.process.exited = true := h.exited_of_live_eq hlive
          exact h.reply_still rfl (.refl k) rfl rfl rfl rfl
            (.gone h.thread (Request.isAccess_of_isCopy hcopy) hq hexited)
    · rw [hhalt] at hact
      cases hact

/-- The frame that bytes are moved from or to has a page. -/
theorem moving_owned {frame : Nat}
    (h : k.Calling m n place p ⟨request, .moving frame, moved⟩ callers) :
    (k.paging.frameTable.owner frame).isSome = true := by
  obtain ⟨e, he, hf, -⟩ := h.holds rfl
  rw [((h.paging rfl).inverse.owner_iff frame _).2 ⟨e, he, hf⟩]
  rfl

/-- What a thread finds that is about to move bytes: the page in its frame, and as many bytes of it
inside the array as it is to move. -/
theorem moving_page {frame : Nat}
    (h : k.Calling m n place p ⟨request, .moving frame, moved⟩ callers)
    {a amount : Nat} (ha : copyAddress ⟨request, .moving frame, moved⟩ = a)
    (hamount : min (k.config.pageSize - Address.offset k.config.pageSize a)
      (request.count - moved.length) = amount) :
    p.exited = false ∧ moved.length + amount ≤ request.count ∧
      Address.offset k.config.pageSize a + amount ≤ k.config.pageSize ∧
      a + amount ≤ p.numPages * k.config.pageSize ∧ frame < k.paging.processor.numFrames ∧
      k.paging.processor.frame frame = .ok (m.page ⟨p.pid, Address.page k.config.pageSize a⟩) := by
  have hpaging := h.paging rfl
  obtain ⟨e, he, hf, -⟩ := h.holds rfl
  rw [h.sound.pageSize_eq, ha] at he
  obtain ⟨-, hframe, hmemory⟩ := hpaging.frame_of_resident he hf
  obtain ⟨bytes, hbytes, hmemory', -⟩ := hpaging.frame_eq hframe
  obtain rfl := Option.some.inj (hmemory.symm.trans hmemory')
  obtain ⟨u, hlive, hlt⟩ := hpaging.inverse.live_of_find? he
  obtain ⟨rfl, hexited⟩ := h.eq_of_live hlive
  have hlt : Address.page k.config.pageSize a < u.numPages := hlt
  -- the page is inside the array, and so is the part of it that is moved
  have hend := Nat.mul_le_mul_right k.config.pageSize (Nat.succ_le_of_lt hlt)
  have haddress := Address.join_split k.config.pageSize a
  rw [Address.join] at haddress
  rw [Nat.succ_mul] at hend
  have hoff : Address.offset k.config.pageSize a < k.config.pageSize :=
    Nat.mod_lt _ h.pageSize_pos
  have hmoved : moved.length ≤ request.count := h.fits.moved_le
  exact ⟨hexited, by omega, by omega, by omega, hframe, hbytes⟩

/-- A copy out of memory gets the bytes of the flat machine. -/
theorem moveOut_run {frame b count : Nat}
    (h : k.Calling m n place p ⟨.copyOut b count, .moving frame, moved⟩ callers)
    (hrun : k.moveBytes ⟨.copyOut b count, .moving frame, moved⟩ frame = .ok result) :
    k.Reaches m n result callers := by
  obtain ⟨q, hq, rfl⟩ := h.flat
  obtain ⟨hcopy, -⟩ := h.fits.stage
  rw [moveBytes] at hrun
  generalize ha : copyAddress ⟨.copyOut b count, .moving frame, moved⟩ = a at hrun
  generalize hamount : min (k.config.pageSize - Address.offset k.config.pageSize a)
    ((Request.copyOut b count).count - moved.length) = amount at hrun
  obtain ⟨hexited, hcount, hoff, hinside, -, hbytes⟩ := h.moving_page ha hamount
  obtain ⟨bytes, hb, hrun⟩ := ok_of_bind hrun
  obtain rfl := Except.ok.inj (hbytes.symm.trans hb)
  obtain rfl : b + moved.length = a := ha
  obtain rfl := Except.ok.inj hrun
  have hpart : ((m.page ⟨q.process.pid, Address.page k.config.pageSize (b + moved.length)⟩).drop
      (Address.offset k.config.pageSize (b + moved.length))).take amount =
      q.load (b + moved.length) amount := by
    rw [h.page_eq hq, FlatProcess.take_drop_load _ hoff]
    exact congrArg (fun x => q.load x amount) (Address.join_split _ _)
  rw [hpart]
  refine .of_step (.loadPart h.thread hq hexited hcount (h.sound.config_eq ▸ hinside)) ?_
  refine h.sound.advance_still _ h.session rfl (.refl k) rfl h.process
    ⟨h.fits.ordinary, ?_, nofun, hcopy⟩ (h.sound.serves_same h.session rfl rfl) (fun _ => rfl)
    rfl rfl (fun _ => h.moving_owned)
  rw [List.length_append, FlatProcess.length_load]
  exact hcount

/-- A copy into memory stores its bytes as the flat machine does. The page was made dirty when it
was pinned. -/
theorem moveIn_run {frame b : Nat} {data : List UInt8}
    (h : k.Calling m n place p ⟨.copyIn b data, .moving frame, moved⟩ callers)
    (hrun : k.moveBytes ⟨.copyIn b data, .moving frame, moved⟩ frame = .ok result) :
    k.Reaches m n result callers := by
  obtain ⟨q, hq, rfl⟩ := h.flat
  obtain ⟨hcopy, -⟩ := h.fits.stage
  rw [moveBytes] at hrun
  generalize ha : copyAddress ⟨.copyIn b data, .moving frame, moved⟩ = a at hrun
  generalize hamount : min (k.config.pageSize - Address.offset k.config.pageSize a)
    ((Request.copyIn b data).count - moved.length) = amount at hrun
  obtain ⟨hexited, hcount, hoff, hinside, hframe, hbytes⟩ := h.moving_page ha hamount
  obtain ⟨bytes, hb, hrun⟩ := ok_of_bind hrun
  obtain rfl := Except.ok.inj (hbytes.symm.trans hb)
  obtain rfl : b + moved.length = a := ha
  have hlength : ((data.drop moved.length).take amount).length = amount := by
    rw [List.length_take, List.length_drop]
    have : moved.length + amount ≤ data.length := hcount
    omega
  have hprefix := List.take_prefix amount (data.drop moved.length)
  obtain ⟨proc, hset, hrun⟩ := ok_of_bind hrun
  obtain rfl := Except.ok.inj hrun
  change k.paging.processor.setFrame frame (Extent.patch _ _
    ((data.drop moved.length).take amount)) = .ok proc at hset
  show k.Simulated m (.advance n) none ((k.withProcessor proc).setPhase n (.busy
    ⟨.copyIn b data, .unpinning frame, moved ++ (data.drop moved.length).take amount⟩)) callers
  -- from here on only the length of the part matters, and that it comes next in the data
  generalize (data.drop moved.length).take amount = part at hlength hprefix hset ⊢
  subst hlength
  have hpaging := h.paging rfl
  obtain ⟨e, he, hf, hwrite⟩ := h.holds rfl
  obtain ⟨hdirty, hro⟩ := hwrite rfl
  rw [h.sound.pageSize_eq] at he hro
  have hpage : (m.page ⟨q.process.pid, Address.page k.config.pageSize
      (b + moved.length)⟩).length = k.config.pageSize := by
    rw [h.page_eq hq, FlatProcess.length_load]
  have hpatched : (Extent.patch (m.page ⟨q.process.pid, Address.page k.config.pageSize
      (b + moved.length)⟩) (Address.offset k.config.pageSize (b + moved.length)) part).length =
        k.paging.processor.pageSize := by
    rw [Extent.length_patch (by rw [hpage]; exact hoff), hpage, h.sound.pageSize_eq]
  -- the page has a dirty entry, so its new bytes will not be lost
  have hstored := hpaging.stored he hf (.inl ⟨e, he, hdirty⟩) hpatched
    (Paging.Sound.getElem?_setFrame hframe _) Array.size_setIfInBounds
  rw [hpaging.setFrame_eq hframe] at hset
  have hproc := Except.ok.inj hset
  refine h.store_holder (.busy ⟨.copyIn b data, .unpinning frame, moved ++ part⟩) rfl
    (.withProcessor k proc) rfl rfl (by rw [← hproc]; rfl) ⟨h.fits.ordinary, ?_, nofun, hcopy⟩
    rfl rfl h.moving_owned rfl hq hoff (hproc ▸ hstored)
    (.storePart h.thread hq hexited hprefix (h.sound.config_eq ▸ hinside) fun i hi => ?_)
  · rw [List.length_append]
    exact hcount
  · -- no byte of the page is protected
    rw [h.sound.config_eq, q.protected_iff h.pageSize_pos,
      Address.page_add h.pageSize_pos (by omega), Bool.not_eq_true]
    exact hro

/-- The part of a page that a copy has come to is moved. -/
theorem move_run {frame : Nat} (h : k.Calling m n place p ⟨request, .moving frame, moved⟩ callers)
    (hrun : k.moveBytes ⟨request, .moving frame, moved⟩ frame = .ok result) :
    k.Reaches m n result callers := by
  obtain ⟨hcopy, -⟩ := h.fits.stage
  cases request with
  | copyOut b count => exact h.moveOut_run hrun
  | copyIn b data => exact h.moveIn_run hrun
  | _ => cases hcopy

/-- The pin is taken off again. -/
theorem unpin_run {frame : Nat}
    (h : k.Calling m n place p ⟨request, .unpinning frame, moved⟩ callers)
    (hrun : k.lockedOrHalt (threadOf n) (Paging.changeFrames (·.unpin frame))
      (·.proceed ⟨request, .unpinning frame, moved⟩ .pinning) = some (.ok result)) :
    k.Reaches m n result callers := by
  obtain ⟨paging, hact, hrun⟩ := lockedOrHalt_ok h.sound.region_eq hrun
  obtain rfl := Except.ok.inj hrun
  have hpaging : k.paging.Sound k.live (some p.pid)
      (frame ::ₘ (k.othersVictims n + callers)) m.page := h.paging rfl
  obtain ⟨s', hunpin, hsound, hprocessor, -⟩ := hpaging.unpin_run
  obtain ⟨-, rfl⟩ := Prod.mk.inj (Except.ok.inj (hact.symm.trans hunpin))
  exact h.proceed_bare rfl (.withPaging k paging) rfl h.fits.stage rfl rfl rfl
    (congrArg Processor.pageSize hprocessor) hsound trivial (h.unnoticed rfl)

end Calling

end DemandPaging.Kernel
