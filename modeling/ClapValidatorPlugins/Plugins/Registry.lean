/-
  The thirteen flavors of the bundle. `Flavor.impl` is what `create_plugin` instantiates.
-/
import ClapValidatorPlugins.Plugins.Effects
import ClapValidatorPlugins.Plugins.Gui
import ClapValidatorPlugins.Plugins.ParamsZoo
import ClapValidatorPlugins.Plugins.Plain
import ClapValidatorPlugins.Plugins.Preset
import ClapValidatorPlugins.Plugins.Surround
import ClapValidatorPlugins.Plugins.Synths

namespace Cvp

inductive Flavor where
  | synth | sidechainSynth | effect | multiOutGen | multiOutFx | audioPortsZero | slow
  | hostCheck | noteFx | paramsZoo | preset | surround | gui
  deriving DecidableEq, Repr

namespace Flavor

/-- The member variables of the flavor's class. -/
def State (D S : Type) : Flavor → Type
  | synth => SynthPlugin.State D S
  | sidechainSynth => SidechainSynthPlugin.State D S
  | effect => EffectPlugin.State D
  | multiOutGen => MultiOutGenPlugin.State D
  | multiOutFx => MultiOutFxPlugin.State D
  | audioPortsZero => AudioPortsZeroPlugin.State D
  | slow => SlowPlugin.State D
  | hostCheck => HostCheckPlugin.State
  | noteFx => NoteFxPlugin.State D
  | paramsZoo => ParamsZooPlugin.State D
  | preset => PresetPlugin.State D
  | surround => SurroundPlugin.State D
  | gui => GuiPlugin.State D

variable {D S : Type} [DoubleOps D] [FloatOps S] [FloatCast D S] [DoubleBits D]

def impl : (flavor : Flavor) → PluginImpl D S (flavor.State D S)
  | synth => SynthPlugin.impl
  | sidechainSynth => SidechainSynthPlugin.impl
  | effect => EffectPlugin.impl
  | multiOutGen => MultiOutGenPlugin.impl
  | multiOutFx => MultiOutFxPlugin.impl
  | audioPortsZero => AudioPortsZeroPlugin.impl
  | slow => SlowPlugin.impl
  | hostCheck => HostCheckPlugin.impl
  | noteFx => NoteFxPlugin.impl
  | paramsZoo => ParamsZooPlugin.impl
  | preset => PresetPlugin.impl
  | surround => SurroundPlugin.impl
  | gui => GuiPlugin.impl

/-- What the host reads through `params.get_value`. -/
def paramValue (flavor : Flavor) (s : flavor.State D S) (id : ClapId) : Option D :=
  ((flavor.impl : PluginImpl D S _).params).bind fun params => params.paramValue s id

end Flavor

end Cvp
