import FlutterQuickjs.Conversion.Isomorphism
import FlutterQuickjs.Binding.Instance
import FlutterQuickjs.Binding.Plain
import FlutterQuickjs.Callback.Arity
import FlutterQuickjs.Conversion.Encode
import FlutterQuickjs.Conversion.EncodeArray
import FlutterQuickjs.Conversion.MapKeys
import FlutterQuickjs.Conversion.Maps
import FlutterQuickjs.Conversion.Resend
import FlutterQuickjs.Conversion.Strings
import FlutterQuickjs.Release.Consumed
import FlutterQuickjs.Release.Failing
import FlutterQuickjs.Release.Reported
import FlutterQuickjs.Numbers.Crossing
import FlutterQuickjs.Numbers.NanBoxing
import FlutterQuickjs.Paths.Splitting
import FlutterQuickjs.Scripts.EvalScript
import FlutterQuickjs.Scripts.Registration
import FlutterQuickjs.Callback.Wrapper
import FlutterQuickjs.Release.Transients
import FlutterQuickjs.Conversion.Lengths
import FlutterQuickjs.Callback.Propagation
import FlutterQuickjs.Callback.Routing
import FlutterQuickjs.Conversion.Functions
import FlutterQuickjs.Conversion.Access
import FlutterQuickjs.Conversion.Aliases
