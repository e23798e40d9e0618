import Ucollect.Construction.Core.UplinkFormat

/-
This file proves what the activations of a message do to the plugins of a client.
-/

namespace Ucollect.Activation
open Library Core List Option

variable {Z : Type}

section Loop

variable {system : System Z}

end Loop

section Lists

variable {plugins : List Plugin}

/-- The activation asks for what the plugin already is. -/
def Agrees (plugins : List Plugin) (activation : Core.Activation) : Prop :=
  ∀ plugin ∈ plugins, plugin.name = activation.name → plugin.hash = activation.hash →
    plugin.active = activation.activate

/-- Without a change the plugins are as the activation wants them. -/
theorem switchPlugin_unchanged {activation : Core.Activation}
    (distinct : (plugins.map Plugin.name).Nodup)
    (unchanged : (switchPlugin plugins activation).changed = false) :
    (switchPlugin plugins activation).plugins = plugins ∧ Agrees plugins activation := by
  rw [switchPlugin] at unchanged ⊢
  cases found : plugins.findIdx? fun plugin =>
    plugin.name == activation.name && plugin.hash == activation.hash with
  | none =>
    refine ⟨rfl, fun plugin member name hash => ?_⟩
    have different := List.findIdx?_eq_none_iff.mp found plugin member
    rw [name, hash, beq_self_eq_true, beq_self_eq_true] at different
    cases different
  | some index =>
    simp only [found] at unchanged
    split at unchanged
    · next same =>
        refine ⟨by simp only [if_pos same], fun plugin member name hash => ?_⟩
        obtain ⟨small, first, _⟩ := List.findIdx?_eq_some_iff_getElem.mp found
        rw [List.getElem?_eq_getElem small, any_some, beq_iff_eq] at same
        rw [Bool.and_eq_true, beq_iff_eq] at first
        have here : plugin = plugins[index] :=
          inj_on_of_nodup_map distinct member (getElem_mem small)
            (name.trans first.1.symm)
        rw [here]
        exact same
    · cases unchanged

theorem switchPlugins_unchanged {activations : List Core.Activation}
    (distinct : (plugins.map Plugin.name).Nodup)
    (unchanged : (switchPlugins plugins activations).changed = false) :
    (switchPlugins plugins activations).plugins = plugins ∧
      ∀ activation ∈ activations, Agrees plugins activation := by
  induction activations with
  | nil => exact ⟨rfl, fun _ impossible => absurd impossible not_mem_nil⟩
  | cons activation rest ih =>
    simp only [switchPlugins, Bool.or_eq_false_iff] at unchanged ⊢
    obtain ⟨same, agrees⟩ := switchPlugin_unchanged distinct unchanged.1
    rw [same] at unchanged ⊢
    obtain ⟨rest, others⟩ := ih unchanged.2
    exact ⟨rest, forall_mem_cons.mpr ⟨agrees, others⟩⟩

/-- The other fields of a plugin stay. -/
theorem map_switchPlugin {A : Type} (view : Plugin → A)
    (blind : ∀ plugin active, view { plugin with active := active } = view plugin)
    (activation : Core.Activation) :
    (switchPlugin plugins activation).plugins.map view = plugins.map view := by
  rw [switchPlugin]
  split
  · rfl
  · next index _ =>
      split
      · rfl
      · apply ext_getElem?
        intro position
        rw [List.getElem?_map, List.getElem?_map, List.getElem?_modify]
        by_cases here : index = position
        · cases plugins[position]? with
          | none => rfl
          | some plugin =>
            simp only [if_pos here]
            exact congrArg some (blind plugin activation.activate)
        · cases plugins[position]? with
          | none => rfl
          | some plugin =>
            simp only [if_neg here]
            rfl

theorem map_switchPlugins {A : Type} (view : Plugin → A)
    (blind : ∀ plugin active, view { plugin with active := active } = view plugin)
    (activations : List Core.Activation) :
    (switchPlugins plugins activations).plugins.map view = plugins.map view := by
  induction activations generalizing plugins with
  | nil => rfl
  | cons activation rest ih => exact ih.trans (map_switchPlugin view blind activation)

end Lists

end Ucollect.Activation
