import RegisterMap.Proofs.Invariant

/-!
# Parents and look-ups

A derived peripheral takes its group from the last peripheral of its parent's
name, while a look-up gives the first one. The two are one peripheral if the
name is declared once. If it is declared again with another group, the look-up
leads to a peripheral whose layout the derived one does not have.

- `Alias.exists_last_of_linkAll`: what a name stands for when peripherals are
  linked
- `Device.group_of_parent_iff`: when a look-up of the parent gives the group
-/

namespace RegisterMap.Device

open FirstWins

/-- The last peripheral of a name. -/
def lastPeripheral? (d : Device) (name : String) : Option Peripheral :=
  find? Peripheral.name d.peripherals.reverse name

/-- A peripheral with a parent has the group of the last peripheral of that name, and that is the
    group of the peripheral that a look-up of the name gives exactly if the first and the
    last one of the name have one group. -/
theorem group_of_parent_iff {text : String} {d : Device} (h : (ofText text).Gives d)
    {p : Peripheral} (hp : p ∈ d.peripherals) {parent : String} (hparent : p.parent = some parent) :
    ∃ first last, d.peripheral? parent = some first ∧ d.lastPeripheral? parent = some last
      ∧ last.group = p.group ∧ (first.group = p.group ↔ first.group = last.group) := by
  obtain ⟨e, _, hof⟩ := gives_ofText.1 h
  obtain ⟨w, parts, peripherals, _, _, _, hlink, rfl⟩ := gives_ofElement.1 hof
  obtain ⟨x, _, hx⟩ := Alias.exists_declaration hlink hp
  have hlayout := Alias.layout_of_parent hx hparent
  obtain ⟨y, hlast, hgroup⟩ := Alias.exists_last?_of_resolve hlayout (Alias.gives_link.1 hx).1
  -- the declaration of the parent is linked as well, and there is a first one with its name
  obtain ⟨last, hlast, hy⟩ := Alias.exists_last_of_linkAll hlink hlast
  have hsame : last.group = p.group := hgroup _ (Alias.gives_link.1 hy).1
  cases hfirst : find? Peripheral.name peripherals parent with
  | none =>
    have hmem := List.mem_reverse.1 (mem_of_find? hlast)
    exact absurd (name_of_find? hlast ▸ List.mem_map_of_mem hmem) (find?_eq_none_iff.1 hfirst)
  | some first => exact ⟨first, last, hfirst, hlast, hsame, by rw [hsame]⟩

/-- The last port has the group of the first one. -/
theorem group_of_parent_ports :
    (ofText portsText).Gives ports
      ∧ ∃ p ∈ ports.peripherals, p.name = "PC" ∧ p.parent = some "PA"
        ∧ ∃ first, ports.peripheral? "PA" = some first ∧ first.group = p.group := by
  have hp : (⟨"PC", "PORT", some "PA", 0x40020800, none⟩ : Peripheral) ∈ ports.peripherals := by
    decide
  obtain ⟨first, last, hfirst, hlast, _, hiff⟩ := group_of_parent_iff gives_ports hp rfl
  -- the parent is declared once, so that it is the first and the last one of its name
  have hboth : ports.peripheral? "PA" = ports.lastPeripheral? "PA" := by decide
  obtain rfl := Option.some.inj (hfirst.symm.trans (hboth.trans hlast))
  exact ⟨gives_ports, _, hp, rfl, rfl, first, hfirst, hiff.2 rfl⟩

/-- A description in which one name is declared twice, with two groups, and a peripheral is derived
    from it. -/
def repeatedUartText : String :=
  "<device><width>32</width><peripherals>
    <peripheral><name>UA</name><groupName>UART</groupName><baseAddress>0x0</baseAddress></peripheral>
    <peripheral derivedFrom='UA'><name>UB</name><baseAddress>0x100</baseAddress></peripheral>
    <peripheral><name>UA</name><groupName>USART</groupName><baseAddress>0x200</baseAddress></peripheral>
  </peripherals></device>"

/-- The device with the repeated name. -/
def repeatedUart : Device where
  name := none
  width := .w32
  peripherals :=
    [⟨"UA", "UART", none, 0, none⟩, ⟨"UB", "USART", some "UA", 0x100, none⟩,
      ⟨"UA", "USART", none, 0x200, none⟩]
  groups := [⟨"UART", []⟩, ⟨"USART", []⟩]
  interrupts := []

/-- A look-up of the repeated name gives a peripheral of another group than the derived one has. -/
theorem not_group_of_parent_repeatedUart :
    (ofText repeatedUartText).Gives repeatedUart
      ∧ ¬ ∀ p ∈ repeatedUart.peripherals, ∀ parent, p.parent = some parent →
        ∃ q, repeatedUart.peripheral? parent = some q ∧ q.group = p.group := by
  constructor
  · unfold repeatedUartText ofText Xml.Document.parse?
    rw [String.toList_ofList]
    decide +kernel
  · intro h
    obtain ⟨q, hq, hgroup⟩ := h ⟨"UB", "USART", some "UA", 0x100, none⟩ (by decide) "UA" rfl
    -- the lookup gives the first peripheral of the name
    have hfirst : repeatedUart.peripheral? "UA" = some ⟨"UA", "UART", none, 0, none⟩ := by decide
    obtain rfl := Option.some.inj (hq.symm.trans hfirst)
    exact absurd hgroup (by decide)

end RegisterMap.Device
