import HandlerScript.Command
import HandlerScript.Effect.Hosted
import HandlerScript.Effect.Texts

/-! The effect of each command that runs no others. -/

namespace HandlerScript

/-- The effect of a command at a moment. Commands that run others have none of their own. -/
def Command.effect (moment : Moment) (s : Scope) (node : Node) : Command → Effect
  | .set => Effect.set s node
  | .setVar => Effect.setVar s node
  | .get => Effect.get s node
  | .increment => Effect.arithmetic .add s node
  | .decrement => Effect.arithmetic .subtract s node
  | .multiply => Effect.arithmetic .multiply s node
  | .divide => Effect.arithmetic .divide s node
  | .calculate => Effect.calculate s node
  | .toggle => Effect.toggle s node
  | .append => Effect.append s node
  | .clear => Effect.clear s node
  | .substring => Effect.substring s node
  | .replace => Effect.replace s node
  | .toUpper => Effect.toUpper s node
  | .toLower => Effect.toLower s node
  | .length => Effect.length s node
  | .newGuid => Effect.newGuid s node
  | .now => Effect.now moment s node
  | .callFunction => Effect.callFunction s node
  | .show => Effect.flag "Visible" true s node
  | .hide => Effect.flag "Visible" false s node
  | .enable => Effect.flag "IsEnabled" true s node
  | .disable => Effect.flag "IsEnabled" false s node
  | .copyProperty => Effect.copyProperty s node
  | .navigate => Effect.goTo s node
  | .openWindow => Effect.showWindow s node
  | .closeWindow => Effect.hideWindow s node
  | .copyToClipboard => Effect.copyToClipboard s node
  | .pasteFromClipboard => Effect.pasteFromClipboard s node
  | .alert => Effect.showAlert s node
  | .log => Effect.writeLog s node
  | .throw => Effect.throwFault s node
  | .unknown => Effect.pluginCommand s node
  | .delay | .branch | .switch | .forEach | .whileLoop | .tryCatch | .call | .sequence => .nothing

end HandlerScript
