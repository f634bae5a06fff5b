import RegisterMap.Compile
import RegisterMap.Proofs.Checked
import RegisterMap.Proofs.Element
import RegisterMap.Proofs.Unlinking

/-!
# Layouts that are not read

A derived peripheral has the layout of its parent. What it says about registers
of its own, and about a group, plays no part: another layout in its place, be it
one that could not be read, leaves the device as it is, or the fault that stops
the reading. Even the notices are the same, but for those on layouts.

- `Checked.SameApart`: readings that differ in some notices only
- `Declared.Relaid`: a derived peripheral with another layout
- `Device.sameApart_of_relaid`: descriptions with such a peripheral
-/

namespace RegisterMap

open Xml (Element)

/-! ## Readings that differ in some notices only -/

namespace Checked

variable {α β σ : Type} {counts : Notice → Bool}

/-- Two readings end with the same value or the same fault, and make the same notices as far as
    these count. -/
structure SameApart (counts : Notice → Bool) (x y : Checked α) : Prop where
  result : y.result = x.result
  notices : y.notices.filter counts = x.notices.filter counts

/-- A reading is the same as itself. -/
theorem SameApart.refl (x : Checked α) : SameApart counts x x := ⟨rfl, rfl⟩

/-- Of what follows the first readings only the value matters that they give. -/
theorem SameApart.bind {x y : Checked α} {f g : α → Checked β} (h : SameApart counts x y)
    (hfg : ∀ a, x.Gives a → SameApart counts (f a) (g a)) :
    SameApart counts (x >>= f) (y >>= g) := by
  obtain ⟨hresult, hnotices⟩ := h
  rw [bind_def, bind_def, hresult]
  -- after a fault nothing more is read
  cases hx : x.result with
  | error fault => exact ⟨rfl, hnotices⟩
  | ok a =>
    obtain ⟨hresult', hnotices'⟩ := hfg a hx
    refine ⟨hresult', ?_⟩
    rw [List.filter_append, List.filter_append, hnotices, hnotices']

/-- Notices that do not count make no difference. -/
theorem sameApart_noteAll {ns ms : List Notice} (hns : ∀ n ∈ ns, counts n = false)
    (hms : ∀ m ∈ ms, counts m = false) : SameApart counts (noteAll ns) (noteAll ms) := by
  have hnone : ∀ ls : List Notice, (∀ n ∈ ls, counts n = false) → ls.filter counts = [] :=
    fun ls hls => List.filter_eq_nil_iff.2 fun n hn => by simp [hls n hn]
  refine ⟨rfl, ?_⟩
  show ms.filter counts = ns.filter counts
  rw [hnone ns hns, hnone ms hms]

/-- A step of a loop can be exchanged for another one. -/
theorem SameApart.foldlM_middle {f : σ → α → Checked σ} {a b : α}
    (h : ∀ s, SameApart counts (f s a) (f s b)) (before after : List α) (s : σ) :
    SameApart counts ((before ++ a :: after).foldlM f s) ((before ++ b :: after).foldlM f s) := by
  simp only [List.foldlM_append, List.foldlM_cons]
  refine (refl _).bind fun t _ => ?_
  exact (h t).bind fun u _ => refl _

end Checked

open Checked (SameApart)

/-- Whether a notice is about anything but a layout that is not read. -/
def Notice.isOffLayout : Notice → Bool
  | layoutIgnored _ => false
  | clusterSkipped _ _ => false
  | _ => true

/-! ## Peripherals -/

namespace Declared

/-- A derived peripheral, and the same one with anything else in the place of its registers and of
    the name of its group. -/
structure Relaid (c c' : Element) : Prop where
  derived : ∃ parent, c.attribute? "derivedFrom" = some parent
  attributes : c'.attributes = c.attributes
  others : ∀ tag, tag ≠ "registers" → tag ≠ "groupName" → c'.childrenNamed tag = c.childrenNamed tag

variable {c c' : Element} (h : Relaid c c')
include h

/-- The attributes stay what they are. -/
theorem Relaid.attribute? (name : String) : c'.attribute? name = c.attribute? name := by
  unfold Element.attribute?
  rw [h.attributes]

/-- Every text but the name of the group stays. -/
theorem Relaid.childText? {tag : String} (hregisters : tag ≠ "registers")
    (hgroup : tag ≠ "groupName") : c'.childText? tag = c.childText? tag :=
  Element.childText?_congr (h.others tag hregisters hgroup)

/-- The name of a group is not even looked at. -/
theorem Relaid.layout_eq (name : String) (loc : Location) :
    layout c' name loc = layout c name loc := by
  obtain ⟨parent, hparent⟩ := h.derived
  rw [layout, layout, h.attribute?, hparent]

/-- A peripheral with a parent is declared the same, whatever its group is called. -/
theorem Relaid.peripheral_eq (loc : Location) : peripheral c' loc = peripheral c loc := by
  have hdescription : description c' = description c := by
    rw [description, description, h.childText? (by decide) (by decide)]
  have hname : text c' "name" loc = text c "name" loc := by
    rw [text, text, h.childText? (by decide) (by decide)]
  have hbase : ∀ loc, address c' "baseAddress" loc = address c "baseAddress" loc := by
    intro loc
    rw [address, address, text, text, h.childText? (by decide) (by decide)]
  -- no child that the declaration reads was changed
  simp only [peripheral, hname, hbase, h.layout_eq, hdescription]

/-- The peripheral does have a parent. -/
theorem Relaid.exists_parent {loc : Location} {d : Declaration} (hd : (peripheral c loc).Gives d) :
    ∃ parent, d.layout = .derived parent := by
  obtain ⟨parent, hparent⟩ := h.derived
  simp only [peripheral, Checked.gives_bind, Checked.gives_pure, layout, hparent] at hd
  obtain ⟨name, _, _, _, base, _, l, hl, rfl⟩ := hd
  exact ⟨parent, hl.symm⟩

/-- The interrupts stay what they are. -/
theorem Relaid.addInterrupts_eq (loc : Location) (table : List Interrupt) :
    addInterrupts loc table c' = addInterrupts loc table c := by
  rw [addInterrupts, addInterrupts, h.others "interrupt" (by decide) (by decide)]

end Declared

/-! ## Drafts -/

namespace Draft

/-- The groups do not change with a derived peripheral, whatever it says about registers. -/
theorem sameApart_fillGroups {d : Declaration} {parent : String} (hd : d.layout = .derived parent)
    (groups : List Group) (registers registers' : List Element) (loc : Location) :
    SameApart Notice.isOffLayout (fillGroups groups d registers loc)
      (fillGroups groups d registers' loc) := by
  have hfill : ∀ registers : List Element,
      SameApart Notice.isOffLayout (pure groups) (fillGroups groups d registers loc) := by
    intro registers
    -- there is at most a notice that the registers are ignored
    unfold fillGroups
    rw [hd]
    cases registers <;> exact ⟨rfl, rfl⟩
  exact ⟨(hfill registers').result.trans (hfill registers).result.symm,
    (hfill registers').notices.trans (hfill registers).notices.symm⟩

/-- Notices on clusters are about the layout, so that they do not count. -/
theorem isOffLayout_of_mem_skippedClusters {c : Element} {loc : Location} :
    ∀ n ∈ skippedClusters c loc, n.isOffLayout = false := by
  intro n hn
  obtain ⟨cluster, _, rfl⟩ := List.mem_map.1 hn
  rfl

/-- Adding a peripheral that has a parent makes no difference but in what is noted on its layout. -/
theorem sameApart_addPeripheral {c c' : Element} (h : Declared.Relaid c c') (draft : Draft)
    (i : Nat) :
    SameApart Notice.isOffLayout (draft.addPeripheral c i) (draft.addPeripheral c' i) := by
  unfold addPeripheral
  simp only [h.peripheral_eq, h.addInterrupts_eq]
  refine (SameApart.refl _).bind fun d hd => ?_
  -- with a parent, the registers are not looked at
  obtain ⟨parent, hparent⟩ := h.exists_parent hd
  refine (SameApart.refl _).bind fun _ _ => ?_
  refine (SameApart.refl _).bind fun interrupts _ => ?_
  refine (sameApart_fillGroups hparent _ _ _ _).bind fun groups _ => ?_
  refine SameApart.bind ?_ fun _ _ => SameApart.refl _
  exact Checked.sameApart_noteAll isOffLayout_of_mem_skippedClusters
    isOffLayout_of_mem_skippedClusters

end Draft

/-! ## Devices -/

namespace Device

/-- The description of a device with another layout for one of its derived peripherals describes
    the same device, or has the same fault at the same location. -/
theorem sameApart_of_relaid {e e' : Element}
    (h : Element.Inside "peripherals" "peripheral" (Element.Single Declared.Relaid) e e') :
    SameApart Notice.isOffLayout (ofElement e) (ofElement e') := by
  have hsame := h.sameBut
  have hwidth : Declared.width e' = Declared.width e := by
    rw [Declared.width, Declared.width, hsame.childText? (by decide)]
  have hdraft : SameApart Notice.isOffLayout (Draft.empty.addPeripherals e)
      (Draft.empty.addPeripherals e') := by
    unfold Draft.addPeripherals
    obtain hnested | ⟨before, c, _, after, ⟨c', rfl, hc⟩, he, he'⟩ := h.nested
    · rw [hnested]
      exact SameApart.refl _
    -- one peripheral for one: those behind it keep their indices, and so their locations
    · rw [he, he', List.append_assoc, List.singleton_append, List.zipIdx_append,
        List.zipIdx_append, List.zipIdx_cons, List.zipIdx_cons]
      exact SameApart.foldlM_middle
        (fun draft => Draft.sameApart_addPeripheral hc draft _) _ _ _
  unfold ofElement
  rw [hwidth, hsame.childText? (by decide)]
  refine (SameApart.refl _).bind fun w _ => ?_
  exact hdraft.bind fun draft _ => SameApart.refl _

/-- The second timer with a group that is no name and registers that cannot be read. -/
def brokenTimer : Element :=
  { secondTimer with
    children := secondTimer.children
      ++ [(Element.leaf "groupName" "no name").node,
        .element "registers" []
          [.element "register" [] [(Element.leaf "dim" "many").node], .element "cluster" [] []]] }

/-- The broken timer differs from the second one in its layout only. -/
theorem relaid_brokenTimer : Declared.Relaid secondTimer brokenTimer where
  derived := ⟨"T3", by decide +kernel⟩
  attributes := rfl
  others tag hregisters hgroup := by
    simp [Element.childrenNamed, brokenTimer, Element.leaf, Element.node, Xml.Node.element?,
      hregisters.symm, hgroup.symm]

/-- The timers are the same with a layout of the second one that could not be read. -/
theorem sameApart_of_relaid_timers :
    Element.Inside "peripherals" "peripheral" (Element.Single Declared.Relaid)
        (timersWith secondTimer) (timersWith brokenTimer)
      ∧ (ofElement (timersWith secondTimer)).Gives timers
      ∧ (ofElement (timersWith brokenTimer)).Gives timers := by
  have hgives : (ofElement (timersWith secondTimer)).Gives timers := by decide +kernel
  -- the timer is replaced in the list of peripherals, and the list in the device
  have hinner := @Element.Replaced.child "peripheral" (Element.Single Declared.Relaid) "peripherals"
    [] [] (otherTimers.map Element.node) secondTimer [brokenTimer] ⟨_, rfl, relaid_brokenTimer⟩ rfl
    (List.forall_mem_singleton.2 rfl)
  have hinside := @Element.Replaced.child "peripherals"
    (Element.Single (Element.Replaced "peripheral" (Element.Single Declared.Relaid))) "device" []
    [(Element.leaf "width" "32").node] []
    ⟨"peripherals", [], (secondTimer :: otherTimers).map Element.node⟩
    [⟨"peripherals", [], (brokenTimer :: otherTimers).map Element.node⟩]
    ⟨_, rfl, hinner⟩ rfl (List.forall_mem_singleton.2 rfl)
  exact ⟨hinside, hgives, (sameApart_of_relaid hinside).result.trans hgives⟩

end Device
end RegisterMap
