import Sming.CInt
import Sming.DateTime.Helpers
import Sming.DateTime.Epoch
import Sming.DateTime.PreEpoch
import Sming.DateTime.Midnight
import Sming.DateTime.Defined
import Sming.WString.Layout
import Sming.WString.Rep
import Sming.WString.Pad
import Sming.WString.Content
